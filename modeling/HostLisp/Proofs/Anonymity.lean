import HostLisp.Floating.Decimal
import HostLisp.Proofs.Renaming
import HostLisp.Value.Flaw
import HostLisp.Value.Printer

/-!
Names leave no trace in numbers and texts. Arithmetic passes the name of a NaN on and looks at none,
and what is written about an expression or a value does not show names.
-/

namespace HostLisp

namespace Floating

variable (f : Renaming)

@[simp] theorem smul_invalid : f • invalid = invalid := by simp [invalid]

@[simp] theorem smul_zero (negative : Bool) : f • zero negative = zero negative := by
  cases negative <;> rfl

@[simp] theorem smul_ofScaled (negative : Bool) (mantissa : Nat) (exponent : Int) :
    f • ofScaled negative mantissa exponent = ofScaled negative mantissa exponent := by
  unfold ofScaled
  split
  · exact smul_zero f negative
  · rfl

@[simp] theorem smul_roundFraction (format : BinaryFormat) (negative : Bool) (num den : Nat) :
    f • format.roundFraction negative num den = format.roundFraction negative num den := by
  unfold BinaryFormat.roundFraction
  dsimp only
  split_ifs
  · exact smul_zero f negative
  · rfl
  · exact smul_ofScaled f negative _ _

@[simp] theorem smul_round (format : BinaryFormat) (x : Rat) : f • format.round x = format.round x :=
  smul_roundFraction f format _ _ _

@[simp] theorem smul_ofInt (n : Int) : f • ofInt n = ofInt n := smul_round f .double n

@[simp] theorem isNaN_smul (x : Floating) : (f • x).isNaN = x.isNaN := by cases x <;> rfl

@[simp] theorem isNegative_smul (x : Floating) : (f • x).isNegative = x.isNegative := by
  cases x <;> rfl

@[simp] theorem toDyadic?_smul (x : Floating) : (f • x).toDyadic? = x.toDyadic? := by cases x <;> rfl

@[simp] theorem isFinite_smul (x : Floating) : (f • x).isFinite = x.isFinite := by
  rw [isFinite, toDyadic?_smul, isFinite]

@[simp] theorem isZero_smul (x : Floating) : (f • x).isZero = x.isZero := by
  rw [isZero, toDyadic?_smul, isZero]

@[simp] theorem toInt?_smul (x : Floating) : (f • x).toInt? = x.toInt? := by cases x <;> rfl

@[simp] theorem toText_smul (style : DecimalStyle) (format : BinaryFormat) (x : Floating) :
    (f • x).toText style format = x.toText style format := by cases x <;> rfl

@[simp] theorem text_smul (x : Floating) : (f • x).text = x.text := toText_smul f .plain .double x

@[simp] theorem compareInt_smul (x : Floating) (n : Int) : (f • x).compareInt n = x.compareInt n := by
  cases x <;> rfl

@[simp] theorem lt_smul_smul (x y : Floating) : (f • x).lt (f • y) = x.lt y := by
  cases x <;> cases y <;> rfl

@[simp] theorem eq_smul_smul (x y : Floating) : (f • x).eq (f • y) = x.eq y := by
  cases x <;> cases y <;> rfl

@[simp] theorem smul_eq_finite_iff (x : Floating) (value : Dyadic) :
    f • x = finite value ↔ x = finite value := by
  cases x <;> simp

theorem smul_injective : Function.Injective (f • · : Floating → Floating) := by
  intro x y same
  cases x <;> cases y <;> simp_all

@[simp] theorem smul_eq_smul (x y : Floating) : f • x = f • y ↔ x = y := (smul_injective f).eq_iff

@[simp] theorem neg_smul (x : Floating) : (f • x).neg = f • x.neg := by
  cases x with
  | finite value =>
    rw [smul_finite, neg]
    split <;> rfl
  | _ => rfl

@[simp] theorem abs_smul (x : Floating) : (f • x).abs = f • x.abs := by
  unfold abs
  rw [isNegative_smul, neg_smul]
  split <;> rfl

@[simp] theorem cast_smul (format : BinaryFormat) (x : Floating) :
    format.cast (f • x) = f • format.cast x := by
  cases x with
  | finite value => exact (smul_round f format value.toRat).symm
  | _ => rfl

@[simp] theorem add_smul_smul (x y : Floating) : (f • x).add (f • y) = f • x.add y := by
  cases x <;> cases y <;> simp [add]

@[simp] theorem sub_smul_smul (x y : Floating) : (f • x).sub (f • y) = f • x.sub y := by simp [sub]

@[simp] theorem mul_smul_smul (x y : Floating) : (f • x).mul (f • y) = f • x.mul y := by
  unfold mul
  simp only [isNegative_smul, toDyadic?_smul, isNaN_smul, isZero_smul]
  split
  · split <;> simp
  · split <;> simp

@[simp] theorem div_smul_smul (x y : Floating) : (f • x).div (f • y) = f • x.div y := by
  cases x <;> cases y <;> simp [div, toDyadic?, isNegative]

theorem smul_ofText? (text : String) : f • ofText? text = ofText? text := by
  have named : ∀ negative name, f • named? negative name = named? negative name := by
    intro negative name
    unfold named?
    split_ifs <;> simp
  have rounded : ∀ decimal : Decimal, f • decimal.toFloating .double = decimal.toFloating .double := by
    intro decimal
    unfold Decimal.toFloating
    split_ifs <;> simp
  unfold ofText?
  dsimp only
  split
  · next value found =>
    rw [← found]
    exact named _ _
  · cases ungroup? false _ with
    | none => rfl
    | some plain =>
      cases found : Text.Numeral.ofChars? plain with
      | none => simp [found]
      | some numeral => simp [found, rounded]

theorem stamped_smul (stamp : Stamp) (x : Floating) :
    (f • x).stamped (f.object stamp) = f • x.stamped stamp := by
  cases x <;> rfl

end Floating

namespace Column

variable (f : Renaming) (style : Style)

theorem sizes_smul (xs : List Floating) : sizes (f • xs) = sizes xs := by
  have size : ∀ x : Floating, (f • x).abs.toDyadic? = x.abs.toDyadic? := by simp
  simp only [sizes, smul_eq_map, List.filterMap_map, Function.comp_def, size]

theorem needsPowers_smul (format : BinaryFormat) (xs : List Floating) :
    needsPowers format (f • xs) = needsPowers format xs := by
  rw [needsPowers, sizes_smul, needsPowers]

theorem cell?_smul (powers : Bool) (positive : Rat → Cell) (x : Floating) :
    style.cell? powers positive (f • x) = style.cell? powers positive x := by
  simp [Style.cell?, Style.sign]

theorem nameOf_smul (x : Floating) : style.nameOf (f • x) = style.nameOf x := by simp [Style.nameOf]

theorem nameWidth_smul (x : Floating) : style.nameWidth (f • x) = style.nameWidth x := by
  rw [Style.nameWidth, nameOf_smul, Style.nameWidth]

theorem write_smul (xs : List Floating) : style.write (f • xs) = style.write xs := by
  rw [Style.write, needsPowers_smul, Style.write]
  simp only [smul_eq_map, List.filterMap_map, List.filter_map, List.map_map, Function.comp_def,
    cell?_smul, nameOf_smul, nameWidth_smul, Floating.isFinite_smul]

theorem write_map_smul (read : Value → Floating) (natural : ∀ value, read (f • value) = f • read value)
    (values : List Value) : style.write ((f • values).map read) = style.write (values.map read) := by
  have passed : (f • values).map read = f • values.map read := by
    simp only [smul_eq_map, List.map_map, Function.comp_def, natural]
  rw [passed, write_smul]

end Column

theorem complexText_smul (f : Renaming) (re im : Floating) :
    complexText (f • re) (f • im) = complexText re im := by simp [complexText]

namespace ElementType

variable (f : Renaming)

theorem complexColumn_smul (read : Value → Floating × Floating)
    (re : ∀ value, (read (f • value)).1 = f • (read value).1)
    (im : ∀ value, (read (f • value)).2 = f • (read value).2) (values : List Value) :
    complexColumn ((f • values).map read) = complexColumn (values.map read) := by
  simp only [complexColumn, List.map_map]
  rw [Column.write_map_smul f _ (Prod.fst ∘ read) re, Column.write_map_smul f _ (Prod.snd ∘ read) im]

theorem column_smul (element : ElementType) (items : List Value) (exact : List String) :
    element.column (f • items) exact = element.column items exact := by
  cases element with
  | real type =>
    exact Column.write_map_smul f _ _ (fun value => by cases value <;> simp [Value.toReal]) items
  | complex =>
    exact complexColumn_smul f _ (fun value => by cases value <;> simp [Value.toParts])
      (fun value => by cases value <;> simp [Value.toParts]) items
  | _ => rfl

theorem texts_smul (element : ElementType) (shape : Shape) (items : List Value)
    (exact : List String) : element.texts shape (f • items) exact = element.texts shape items exact := by
  rw [texts, smul_eq_map, Grid.shown_map, ← smul_eq_map, column_smul, texts]

end ElementType

mutual

theorem Expr.unseen_rename (f : Renaming) : ∀ expr : Expr, (expr.rename f).unseen = expr.unseen
  | .symbol _ | .number _ _ | .string _ => rfl
  | .list items | .vector items | .program items => congrArg Tree.total (Expr.unseens_renameAll f items)
  | .quote body => Expr.unseen_rename f body
  | .value held _ => Value.unseen_rename f held

theorem Expr.unseens_renameAll (f : Renaming) : ∀ exprs : List Expr,
    Expr.unseens (Expr.renameAll f exprs) = Expr.unseens exprs
  | [] => rfl
  | expr :: exprs => congrArg₂ List.cons (Expr.unseen_rename f expr) (Expr.unseens_renameAll f exprs)

theorem Value.unseen_rename (f : Renaming) : ∀ value : Value, (value.rename f).unseen = value.unseen
  | .list items | .tuple items => congrArg Tree.total (Value.unseens_renameAll f items)
  | .array _ shape items _ =>
    congrArg (fun unseens => Tree.total (Grid.shown shape unseens)) (Value.unseens_renameAll f items)
  | .code expr => Expr.unseen_rename f expr
  | .closure _ body _ _ => congrArg Tree.total (Expr.unseens_renameAll f body)
  | .nil | .bool _ | .float _ | .int _ | .complex _ _ | .text _ | .dict | .machineBool _
  | .machineInt _ _ | .machineFloat _ _ | .form _ | .operative _ _ _ | .native _ | .adapter _ _ _ _
  | .kind _ | .scope _ | .picture _ _ _ => rfl

theorem Value.unseens_renameAll (f : Renaming) : ∀ values : List Value,
    Value.unseens (Value.renameAll f values) = Value.unseens values
  | [] => rfl
  | value :: values =>
    congrArg₂ List.cons (Value.unseen_rename f value) (Value.unseens_renameAll f values)

end

mutual

theorem Expr.source_rename (f : Renaming) : ∀ expr : Expr, (expr.rename f).source = expr.source
  | .symbol _ | .number _ _ | .string _ => rfl
  | .list items | .vector items | .program items => by
    simp only [Expr.rename, Expr.source, Expr.sources_renameAll f items]
  | .quote body => by simp only [Expr.rename, Expr.source, Expr.source_rename f body]
  | .value held _ => Value.display_rename f held

theorem Expr.sources_renameAll (f : Renaming) : ∀ exprs : List Expr,
    Expr.sources (Expr.renameAll f exprs) = Expr.sources exprs
  | [] => rfl
  | expr :: exprs => congrArg₂ List.cons (Expr.source_rename f expr) (Expr.sources_renameAll f exprs)

theorem Expr.tree_rename (f : Renaming) : ∀ expr : Expr, (expr.rename f).tree = expr.tree
  | .symbol _ | .number _ _ | .string _ => rfl
  | .list items | .vector items | .program items => by
    simp only [Expr.rename, Expr.tree, Expr.trees_renameAll f items]
  | .quote body => by simp only [Expr.rename, Expr.tree, Expr.tree_rename f body]
  | .value held _ => by simp only [Expr.rename, Expr.tree, Value.tree_rename f held]

theorem Expr.trees_renameAll (f : Renaming) : ∀ exprs : List Expr,
    Expr.trees (Expr.renameAll f exprs) = Expr.trees exprs
  | [] => rfl
  | expr :: exprs => congrArg₂ List.cons (Expr.tree_rename f expr) (Expr.trees_renameAll f exprs)

theorem Value.display_rename (f : Renaming) : ∀ value : Value,
    (value.rename f).display = value.display
  | .float x => Floating.text_smul f x
  | .complex re im => complexText_smul f re im
  | .machineFloat type x => Floating.toText_smul f _ _ x
  | .list items | .tuple items => by
    simp only [Value.rename, Value.display, Value.trees_renameAll f items]
  | .array element shape items _ => by
    simp only [Value.rename, Value.display, Value.trees_renameAll f items]
    rw [Value.renameAll_eq, ElementType.texts_smul]
  | .code expr => Expr.source_rename f expr
  | .closure _ body _ _ => by
    simp only [Value.rename, Value.display, Expr.sources_renameAll f body]
  | .nil | .bool _ | .int _ | .text _ | .dict | .machineBool _ | .machineInt _ _ | .form _
  | .operative _ _ _ | .native _ | .adapter _ _ _ _ | .kind _ | .scope _ | .picture _ _ _ => rfl

theorem Value.tree_rename (f : Renaming) : ∀ value : Value, (value.rename f).tree = value.tree
  | .float x => by simp only [Value.rename, Value.tree, Floating.text_smul]
  | .complex re im => by simp only [Value.rename, Value.tree, complexText_smul]
  | .machineFloat type x => by
    simp only [Value.rename, Value.tree, RealType.text, Floating.toText_smul]
  | .list items | .tuple items => by
    simp only [Value.rename, Value.tree, Value.trees_renameAll f items]
  | .array element shape items _ => by
    simp only [Value.rename, Value.tree, Value.trees_renameAll f items,
      Value.unseens_renameAll f items]
    rw [Value.renameAll_eq, ElementType.texts_smul, length_smul]
  | .code expr => Expr.tree_rename f expr
  | .closure _ body _ _ => by
    simp only [Value.rename, Value.tree, Expr.sources_renameAll f body, Expr.unseens_renameAll f body]
  | .nil | .bool _ | .int _ | .text _ | .dict | .machineBool _ | .machineInt _ _ | .form _
  | .operative _ _ _ | .native _ | .adapter _ _ _ _ | .kind _ | .scope _ | .picture _ _ _ => rfl

theorem Value.trees_renameAll (f : Renaming) : ∀ values : List Value,
    Value.trees (Value.renameAll f values) = Value.trees values
  | [] => rfl
  | value :: values =>
    congrArg₂ List.cons (Value.tree_rename f value) (Value.trees_renameAll f values)

end

mutual

theorem Expr.flaw?_rename (f : Renaming) : ∀ (room : Nat) (expr : Expr),
    (expr.rename f).flaw? room = expr.flaw? room
  | 0, _ => by rw [Expr.flaw?, Expr.flaw?]
  | _ + 1, .symbol _ | _ + 1, .number _ _ | _ + 1, .string _ => rfl
  | room + 1, .list items | room + 1, .vector items | room + 1, .program items => by
    simp only [Expr.rename, Expr.flaw?, Expr.flaws_renameAll f room items]
  | room + 1, .quote body => Expr.flaw?_rename f room body
  | room + 1, .value held _ => Value.flaw?_rename f room held

theorem Expr.flaws_renameAll (f : Renaming) : ∀ (room : Nat) (exprs : List Expr),
    Expr.flaws room (Expr.renameAll f exprs) = Expr.flaws room exprs
  | _, [] => rfl
  | room, expr :: exprs =>
    congrArg₂ List.cons (Expr.flaw?_rename f room expr) (Expr.flaws_renameAll f room exprs)

theorem Value.flaw?_rename (f : Renaming) : ∀ (room : Nat) (value : Value),
    (value.rename f).flaw? room = value.flaw? room
  | 0, _ => by rw [Value.flaw?, Value.flaw?]
  | room + 1, .list items | room + 1, .tuple items | room + 1, .array _ _ items _ => by
    simp only [Value.rename, Value.flaw?, Value.flaws_renameAll f room items]
  | room + 1, .code expr => Expr.flaw?_rename f room expr
  | room + 1, .closure _ body _ _ => by
    simp only [Value.rename, Value.flaw?, Expr.flaws_renameAll f room body]
  | _ + 1, .nil | _ + 1, .bool _ | _ + 1, .float _ | _ + 1, .int _ | _ + 1, .complex _ _
  | _ + 1, .text _ | _ + 1, .dict | _ + 1, .machineBool _ | _ + 1, .machineInt _ _
  | _ + 1, .machineFloat _ _ | _ + 1, .form _ | _ + 1, .operative _ _ _ | _ + 1, .native _
  | _ + 1, .adapter _ _ _ _ | _ + 1, .kind _ | _ + 1, .scope _ | _ + 1, .picture _ _ _ => rfl

theorem Value.flaws_renameAll (f : Renaming) : ∀ (room : Nat) (values : List Value),
    Value.flaws room (Value.renameAll f values) = Value.flaws room values
  | _, [] => rfl
  | room, value :: values =>
    congrArg₂ List.cons (Value.flaw?_rename f room value) (Value.flaws_renameAll f room values)

end

namespace Expr

variable (f : Renaming) (expr : Expr) (exprs : List Expr)

@[simp] theorem source_smul : (f • expr).source = expr.source := source_rename f expr

@[simp] theorem trees_smul : trees (f • exprs) = trees exprs := by rw [← renameAll_eq, trees_renameAll]

@[simp] theorem flaw?_smul (room : Nat) : (f • expr).flaw? room = expr.flaw? room :=
  flaw?_rename f room expr

@[simp] theorem flawAmong?_smul (room : Nat) : flawAmong? room (f • exprs) = flawAmong? room exprs := by
  rw [flawAmong?, ← renameAll_eq, flaws_renameAll, flawAmong?]

@[simp] theorem kind_smul : (f • expr).kind = expr.kind := by cases expr <;> rfl

end Expr

namespace Value

variable (f : Renaming) (value : Value) (values : List Value)

@[simp] theorem unseens_smul : unseens (f • values) = unseens values := by
  rw [← renameAll_eq, unseens_renameAll]

@[simp] theorem display_smul : (f • value).display = value.display := display_rename f value

@[simp] theorem describe_smul : (f • value).describe = value.describe :=
  congrArg Tree.line (tree_rename f value)

@[simp] theorem flaw?_smul (room : Nat) : (f • value).flaw? room = value.flaw? room :=
  flaw?_rename f room value

@[simp] theorem flawAmong?_smul (room : Nat) :
    flawAmong? room (f • values) = flawAmong? room values := by
  rw [flawAmong?, ← renameAll_eq, flaws_renameAll, flawAmong?]

@[simp] theorem kindOf_smul : (f • value).kindOf = value.kindOf := by
  cases value with
  | code expr => exact Expr.kind_smul f expr
  | _ => rfl

@[simp] theorem isInvokable_smul : (f • value).isInvokable = value.isInvokable := by
  cases value <;> rfl

@[simp] theorem isTruthy_smul : (f • value).isTruthy = value.isTruthy := by cases value <;> rfl

@[simp] theorem isStamped_smul : (f • value).isStamped = value.isStamped := by
  cases value <;> simp [isStamped]

theorem stamped_smul (stamp : Stamp) :
    (f • value).stamped (f.object stamp) = f • value.stamped stamp := by
  cases value <;> simp [stamped, Floating.stamped_smul]

@[simp] theorem callee_smul : (f • value).callee = value.callee := by
  cases value with
  | code expr => exact congrArg Kind.name (Expr.kind_smul f expr)
  | _ => rfl

end Value

end HostLisp
