import HostLisp.Scope
import Mathlib.Algebra.Group.Action.Option
import Mathlib.Algebra.Group.Action.Prod
import Mathlib.Logic.Embedding.Basic

/-!
Renaming. Scopes are told apart by their indices, objects and values placed into code by stamps.
These names carry no meaning of their own: what has its names replaced by other ones is the same
value told apart from other things in another way.
-/

namespace HostLisp

inductive Name where
  | scope (id : ScopeId)
  | object (stamp : Stamp)
  | splice (stamp : Stamp)

/-- Other names for all names, different ones for different ones. What no moment has stamped stays
so. -/
structure Renaming where
  scope : ScopeId ↪ ScopeId
  object : Stamp ↪ Stamp
  splice : Stamp ↪ Stamp
  object_default : object {} = {}

attribute [simp] Renaming.object_default

namespace Renaming

instance : Monoid Renaming where
  one := ⟨.refl _, .refl _, .refl _, rfl⟩
  mul f g := ⟨g.scope.trans f.scope, g.object.trans f.object, g.splice.trans f.splice, by simp⟩
  mul_assoc _ _ _ := rfl
  one_mul _ := rfl
  mul_one _ := rfl

@[simp] theorem one_scope (id : ScopeId) : (1 : Renaming).scope id = id := rfl

@[simp] theorem one_object (stamp : Stamp) : (1 : Renaming).object stamp = stamp := rfl

@[simp] theorem one_splice (stamp : Stamp) : (1 : Renaming).splice stamp = stamp := rfl

@[simp] theorem mul_scope (f g : Renaming) (id : ScopeId) :
    (f * g).scope id = f.scope (g.scope id) := rfl

@[simp] theorem mul_object (f g : Renaming) (stamp : Stamp) :
    (f * g).object stamp = f.object (g.object stamp) := rfl

@[simp] theorem mul_splice (f g : Renaming) (stamp : Stamp) :
    (f * g).splice stamp = f.splice (g.splice stamp) := rfl

@[simp] theorem object_beq_object (f : Renaming) (a b : Stamp) :
    (f.object a == f.object b) = (a == b) := by
  rw [Bool.eq_iff_iff]
  simp

end Renaming

namespace Name

instance : MulAction Renaming Name where
  smul f
    | scope id => scope (f.scope id)
    | object stamp => object (f.object stamp)
    | splice stamp => splice (f.splice stamp)
  one_smul name := by cases name <;> rfl
  mul_smul _ _ name := by cases name <;> rfl

variable (f : Renaming)

@[simp] theorem smul_scope (id : ScopeId) : f • scope id = scope (f.scope id) := rfl

@[simp] theorem smul_object (stamp : Stamp) : f • object stamp = object (f.object stamp) := rfl

@[simp] theorem smul_splice (stamp : Stamp) : f • splice stamp = splice (f.splice stamp) := rfl

theorem smul_injective : Function.Injective (f • · : Name → Name) := by
  intro name other same
  cases name <;> cases other <;> simp_all

end Name

section List

variable {α : Type} [SMul Renaming α] (f : Renaming)

instance : SMul Renaming (List α) := ⟨fun f => List.map (f • ·)⟩

theorem smul_eq_map (items : List α) : f • items = items.map (f • ·) := rfl

@[simp] theorem smul_nil : f • ([] : List α) = [] := rfl

@[simp] theorem smul_cons (item : α) (items : List α) : f • (item :: items) = f • item :: f • items :=
  rfl

@[simp] theorem smul_append (items others : List α) : f • (items ++ others) = f • items ++ f • others :=
  List.map_append

@[simp] theorem length_smul (items : List α) : (f • items).length = items.length := List.length_map _

instance {β : Type} [MulAction Renaming β] : MulAction Renaming (List β) where
  one_smul items := by simp [smul_eq_map]
  mul_smul f g items := by simp [smul_eq_map, mul_smul]

@[simp] theorem isEmpty_smul (items : List α) : (f • items).isEmpty = items.isEmpty := List.isEmpty_map

@[simp] theorem head?_smul (items : List α) : (f • items).head? = f • items.head? := List.head?_map

end List

namespace Floating

instance : MulAction Renaming Floating where
  smul f
    | nan stamp => nan (f.object stamp)
    | x => x
  one_smul x := by cases x <;> rfl
  mul_smul _ _ x := by cases x <;> rfl

variable (f : Renaming)

@[simp] theorem smul_nan (stamp : Stamp) : f • nan stamp = nan (f.object stamp) := rfl

@[simp] theorem smul_infinity (negative : Bool) : f • infinity negative = infinity negative := rfl

@[simp] theorem smul_negativeZero : f • negativeZero = negativeZero := rfl

@[simp] theorem smul_finite (value : Dyadic) : f • finite value = finite value := rfl

end Floating

mutual

def Expr.rename (f : Renaming) : Expr → Expr
  | .symbol name => .symbol name
  | .number raw known => .number raw (f • known)
  | .string raw => .string raw
  | .list items => .list (Expr.renameAll f items)
  | .vector items => .vector (Expr.renameAll f items)
  | .quote body => .quote (Expr.rename f body)
  | .program forms => .program (Expr.renameAll f forms)
  | .value held stamp => .value (Value.rename f held) (f.splice stamp)

def Expr.renameAll (f : Renaming) : List Expr → List Expr
  | [] => []
  | expr :: exprs => Expr.rename f expr :: Expr.renameAll f exprs

def Value.rename (f : Renaming) : Value → Value
  | .nil => .nil
  | .bool b => .bool b
  | .float x => .float (f • x)
  | .int n => .int n
  | .complex re im => .complex (f • re) (f • im)
  | .text s => .text s
  | .list items => .list (Value.renameAll f items)
  | .tuple items => .tuple (Value.renameAll f items)
  | .dict => .dict
  | .machineBool b => .machineBool b
  | .machineInt type n => .machineInt type n
  | .machineFloat type x => .machineFloat type (f • x)
  | .array element shape items stamp =>
    .array element shape (Value.renameAll f items) (f.object stamp)
  | .code expr => .code (Expr.rename f expr)
  | .closure params body scope stamp =>
    .closure params (Expr.renameAll f body) (scope.map f.scope) (f.object stamp)
  | .form form => .form form
  | .operative function name stamp => .operative (Value.rename f function) name (f.object stamp)
  | .native native => .native native
  | .adapter function name window stamp =>
    .adapter (Value.rename f function) name window (f.object stamp)
  | .kind kind => .kind kind
  | .scope id => .scope (f.scope id)
  | .picture text unseen flaw => .picture text unseen flaw

def Value.renameAll (f : Renaming) : List Value → List Value
  | [] => []
  | value :: values => Value.rename f value :: Value.renameAll f values

end

mutual

theorem Expr.rename_one : ∀ expr : Expr, expr.rename 1 = expr
  | .symbol _ | .string _ => rfl
  | .number _ _ => by simp [Expr.rename]
  | .list items | .vector items | .program items => by simp [Expr.rename, Expr.renameAll_one items]
  | .quote body => by simp [Expr.rename, Expr.rename_one body]
  | .value held _ => by simp [Expr.rename, Value.rename_one held]

theorem Expr.renameAll_one : ∀ exprs : List Expr, Expr.renameAll 1 exprs = exprs
  | [] => rfl
  | expr :: exprs => congrArg₂ List.cons (Expr.rename_one expr) (Expr.renameAll_one exprs)

theorem Value.rename_one : ∀ value : Value, value.rename 1 = value
  | .list items | .tuple items | .array _ _ items _ => by
    simp [Value.rename, Value.renameAll_one items]
  | .code expr => by simp [Value.rename, Expr.rename_one expr]
  | .closure _ body scope _ => by
    have captured : scope.map (1 : Renaming).scope = scope := congrFun Option.map_id scope
    simp [Value.rename, Expr.renameAll_one body, captured]
  | .operative function _ _ | .adapter function _ _ _ => by
    simp [Value.rename, Value.rename_one function]
  | .float _ | .complex _ _ | .machineFloat _ _ => by simp [Value.rename]
  | .nil | .bool _ | .int _ | .text _ | .dict | .machineBool _ | .machineInt _ _ | .form _
  | .native _ | .kind _ | .scope _ | .picture _ _ _ => rfl

theorem Value.renameAll_one : ∀ values : List Value, Value.renameAll 1 values = values
  | [] => rfl
  | value :: values => congrArg₂ List.cons (Value.rename_one value) (Value.renameAll_one values)

end

mutual

theorem Expr.rename_mul (f g : Renaming) : ∀ expr : Expr,
    expr.rename (f * g) = (expr.rename g).rename f
  | .symbol _ | .string _ => rfl
  | .number _ _ => by simp [Expr.rename, mul_smul]
  | .list items | .vector items | .program items => by
    simp [Expr.rename, Expr.renameAll_mul f g items]
  | .quote body => by simp [Expr.rename, Expr.rename_mul f g body]
  | .value held _ => by simp [Expr.rename, Value.rename_mul f g held]

theorem Expr.renameAll_mul (f g : Renaming) : ∀ exprs : List Expr,
    Expr.renameAll (f * g) exprs = Expr.renameAll f (Expr.renameAll g exprs)
  | [] => rfl
  | expr :: exprs => congrArg₂ List.cons (Expr.rename_mul f g expr) (Expr.renameAll_mul f g exprs)

theorem Value.rename_mul (f g : Renaming) : ∀ value : Value,
    value.rename (f * g) = (value.rename g).rename f
  | .list items | .tuple items | .array _ _ items _ => by
    simp [Value.rename, Value.renameAll_mul f g items]
  | .code expr => by simp [Value.rename, Expr.rename_mul f g expr]
  | .closure _ body scope _ => by
    have captured : scope.map (f * g).scope = (scope.map g.scope).map f.scope :=
      (Option.map_map f.scope g.scope scope).symm
    simp [Value.rename, Expr.renameAll_mul f g body, captured]
  | .operative function _ _ | .adapter function _ _ _ => by
    simp [Value.rename, Value.rename_mul f g function]
  | .float _ | .complex _ _ | .machineFloat _ _ => by simp [Value.rename, mul_smul]
  | .nil | .bool _ | .int _ | .text _ | .dict | .machineBool _ | .machineInt _ _ | .form _
  | .native _ | .kind _ | .scope _ | .picture _ _ _ => rfl

theorem Value.renameAll_mul (f g : Renaming) : ∀ values : List Value,
    Value.renameAll (f * g) values = Value.renameAll f (Value.renameAll g values)
  | [] => rfl
  | value :: values =>
    congrArg₂ List.cons (Value.rename_mul f g value) (Value.renameAll_mul f g values)

end

instance : MulAction Renaming Expr where
  smul := Expr.rename
  one_smul := Expr.rename_one
  mul_smul := Expr.rename_mul

instance : MulAction Renaming Value where
  smul := Value.rename
  one_smul := Value.rename_one
  mul_smul := Value.rename_mul

theorem Expr.renameAll_eq (f : Renaming) (exprs : List Expr) : Expr.renameAll f exprs = f • exprs := by
  induction exprs with
  | nil => rfl
  | cons expr exprs ih => rw [Expr.renameAll, ih]; rfl

theorem Value.renameAll_eq (f : Renaming) (values : List Value) :
    Value.renameAll f values = f • values := by
  induction values with
  | nil => rfl
  | cons value values ih => rw [Value.renameAll, ih]; rfl

namespace Expr

variable (f : Renaming)

@[simp] theorem smul_symbol (name : String) : f • symbol name = symbol name := rfl

@[simp] theorem smul_number (raw : String) (known : Option Floating) :
    f • number raw known = number raw (f • known) := rfl

@[simp] theorem smul_string (raw : String) : f • string raw = string raw := rfl

@[simp] theorem smul_list (items : List Expr) : f • list items = list (f • items) :=
  congrArg list (renameAll_eq f items)

@[simp] theorem smul_vector (items : List Expr) : f • vector items = vector (f • items) :=
  congrArg vector (renameAll_eq f items)

@[simp] theorem smul_quote (body : Expr) : f • quote body = quote (f • body) := rfl

@[simp] theorem smul_program (forms : List Expr) : f • program forms = program (f • forms) :=
  congrArg program (renameAll_eq f forms)

@[simp] theorem smul_value (held : Value) (stamp : Stamp) :
    f • value held stamp = value (f • held) (f.splice stamp) := rfl

end Expr

namespace Value

variable (f : Renaming)

@[simp] theorem smul_nil : f • nil = nil := rfl

@[simp] theorem smul_bool (b : Bool) : f • bool b = bool b := rfl

@[simp] theorem smul_float (x : Floating) : f • float x = float (f • x) := rfl

@[simp] theorem smul_int (n : Int) : f • int n = int n := rfl

@[simp] theorem smul_complex (re im : Floating) : f • complex re im = complex (f • re) (f • im) := rfl

@[simp] theorem smul_text (s : String) : f • text s = text s := rfl

@[simp] theorem smul_list (items : List Value) : f • list items = list (f • items) :=
  congrArg list (renameAll_eq f items)

@[simp] theorem smul_tuple (items : List Value) : f • tuple items = tuple (f • items) :=
  congrArg tuple (renameAll_eq f items)

@[simp] theorem smul_dict : f • dict = dict := rfl

@[simp] theorem smul_machineBool (b : Bool) : f • machineBool b = machineBool b := rfl

@[simp] theorem smul_machineInt (type : IntegerType) (n : Int) :
    f • machineInt type n = machineInt type n := rfl

@[simp] theorem smul_machineFloat (type : RealType) (x : Floating) :
    f • machineFloat type x = machineFloat type (f • x) := rfl

@[simp] theorem smul_array (element : ElementType) (shape : Shape) (items : List Value)
    (stamp : Stamp) :
    f • array element shape items stamp = array element shape (f • items) (f.object stamp) :=
  congrArg (array element shape · (f.object stamp)) (renameAll_eq f items)

@[simp] theorem smul_code (expr : Expr) : f • code expr = code (f • expr) := rfl

@[simp] theorem smul_closure (params : List String) (body : List Expr)
    (scope : Option ScopeId) (stamp : Stamp) :
    f • closure params body scope stamp =
      closure params (f • body) (scope.map f.scope) (f.object stamp) :=
  congrArg (closure params · (scope.map f.scope) (f.object stamp)) (Expr.renameAll_eq f body)

@[simp] theorem smul_form (form : Form) : f • Value.form form = Value.form form := rfl

@[simp] theorem smul_operative (function : Value) (name : String) (stamp : Stamp) :
    f • operative function name stamp = operative (f • function) name (f.object stamp) := rfl

@[simp] theorem smul_native (native : Native) : f • Value.native native = Value.native native := rfl

@[simp] theorem smul_adapter (function : Value) (name : String) (window : Window) (stamp : Stamp) :
    f • adapter function name window stamp = adapter (f • function) name window (f.object stamp) := rfl

@[simp] theorem smul_kind (kind : Kind) : f • Value.kind kind = Value.kind kind := rfl

@[simp] theorem smul_scope (id : ScopeId) : f • scope id = scope (f.scope id) := rfl

@[simp] theorem smul_picture (text : String) (unseen : Nat) (flaw : Option Flaw) :
    f • picture text unseen flaw = picture text unseen flaw := rfl

end Value

end HostLisp
