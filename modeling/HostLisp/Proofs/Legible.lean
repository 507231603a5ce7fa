import HostLisp.Proofs.Holdings
import HostLisp.Proofs.RoundTrip

/-!
Legible code. The lexer takes a number literal off a text by one grammar, and evaluation reads its
number by another one, possibly much later. Whatever the first grammar admits, in the digits of any
script, the second one reads. So all number literals in parsed code have numbers for texts.
-/

namespace HostLisp

open Text

/-! ### Number literals -/

theorem Text.trimBoth_of_forall {remove : Char → Bool} {cs : List Char}
    (kept : ∀ c ∈ cs, remove c = false) : trimBoth remove cs = cs := by
  have front : ∀ {cs : List Char}, (∀ c ∈ cs, remove c = false) → cs.dropWhile remove = cs := by
    intro cs kept
    cases cs with
    | nil => rfl
    | cons c cs => rw [List.dropWhile_cons_of_neg (by simp [kept c List.mem_cons_self])]
  unfold trimBoth
  rw [front kept, front (by simpa using kept), List.reverse_reverse]

namespace Floating

theorem ungroup?_of_forall {cs : List Char} (plain : ∀ c ∈ cs, c ≠ '_') :
    ∀ afterDigit, ungroup? afterDigit cs = some cs := by
  induction cs with
  | nil => exact fun _ => rfl
  | cons c cs ih =>
    intro afterDigit
    obtain ⟨other, others⟩ := List.forall_mem_cons.mp plain
    rw [ungroup?, if_neg other, ih others]
    rfl

theorem isSome_ofText? {raw : String} (number : Token.IsNumber raw.toList) :
    (ofText? raw).isSome = true := by
  obtain ⟨numeral, proper, spelled⟩ := number
  have part := proper.isPart_chars
  have filled : ∀ c ∈ raw.toList, (isBlank c && !isSeparator c) = false := by
    intro c inside
    have plain := (Token.plain_of_isPart (part c (spelled ▸ inside))).1
    simp only [Token.isDelimiter, Bool.or_eq_false_iff] at plain
    simp [plain]
  have single : ∀ c ∈ raw.toList, c ≠ '_' := by
    rintro c inside rfl
    exact absurd (part '_' (spelled ▸ inside)) (by decide +kernel)
  have scanned : Numeral.ofChars? raw.toList = some numeral := by
    have ends : Numeral.Ends [] := Token.ends_of_atDelimiter rfl
    have found := Numeral.scan?_chars proper ends
    rw [List.append_nil, spelled] at found
    rw [Numeral.ofChars?, found]
  unfold ofText?
  simp only [trimBoth_of_forall filled]
  split
  · rfl
  · simp [ungroup?_of_forall single, scanned]

end Floating

/-! ### Values -/

namespace Value

/-- A number literal whose text is no number. -/
def Misspelt (value : Value) : Prop :=
  ∃ raw known, value = code (.number raw known) ∧ Floating.ofText? raw = none

/-- All number literals found in a value have numbers for texts. -/
def Legible (value : Value) : Prop := ∀ part, Inside part value → ¬part.Misspelt

end Value

open Value

theorem rare_misspelt : Rare Misspelt := by
  rintro value ⟨raw, known, rfl, -⟩
  rfl

theorem Value.Drawn.legible {given : List Value} {value : Value} (drawn : Drawn Misspelt given value)
    (known : ∀ source ∈ given, source.Legible) : value.Legible := by
  intro part inside misspelt
  obtain ⟨source, among, within⟩ := drawn part inside misspelt
  exact known source among part within misspelt

theorem Value.legible_of_pieces {value : Value} (common : value.isRare = false)
    (each : ∀ piece ∈ value.pieces, piece.Legible) : value.Legible :=
  (rare_misspelt.drawn common fun _ among => .of_mem among).legible each

theorem Value.legible_literal {raw : String} {known : Option Floating}
    (spelled : ¬(Value.code (.number raw known)).Misspelt) :
    (Value.code (.number raw known)).Legible := by
  intro part inside
  cases inside with
  | whole => exact spelled
  | deeper among _ => cases among

theorem Value.legible_literal_iff {raw : String} (known : Option Floating) :
    (Value.code (.number raw known)).Legible ↔ (Floating.ofText? raw).isSome = true := by
  rw [Option.isSome_iff_ne_none]
  constructor
  · exact fun legible none => legible _ .whole ⟨raw, known, rfl, none⟩
  · intro number
    refine legible_literal ?_
    rintro ⟨_, _, ⟨⟩, none⟩
    exact number none

theorem Value.legible_closure {params : List String} {body : List Expr} (scope : Option ScopeId)
    (stamp : Stamp) (each : ∀ expr ∈ body, (Value.code expr).Legible) :
    (Value.closure params body scope stamp).Legible := by
  intro part inside misspelt
  cases inside with
  | whole =>
    obtain ⟨_, _, same, -⟩ := misspelt
    cases same
  | deeper among inside =>
    obtain ⟨expr, present, rfl⟩ := List.mem_map.mp among
    exact each expr present part inside misspelt

theorem Value.legible_scope (id : ScopeId) : (Value.scope id).Legible := by
  intro part inside misspelt
  cases inside with
  | whole =>
    obtain ⟨_, _, same, -⟩ := misspelt
    cases same
  | deeper among _ => cases among

mutual

theorem Expr.Readable.legible : ∀ {expr : Expr}, expr.Readable → (Value.code expr).Legible
  | .symbol _, _ => legible_of_pieces rfl (List.forall_mem_nil _)
  | .string _, _ => legible_of_pieces rfl (List.forall_mem_nil _)
  | .number _ known, readable => (legible_literal_iff known).mpr (Floating.isSome_ofText? readable)
  | .list _, readable | .vector _, readable =>
    legible_of_pieces rfl (List.forall_mem_map.mpr (Expr.AllReadable.legible readable))
  | .quote _, readable =>
    legible_of_pieces rfl (List.forall_mem_singleton.mpr (Expr.Readable.legible readable))

theorem Expr.AllReadable.legible : ∀ {exprs : List Expr}, Expr.AllReadable exprs →
    ∀ expr ∈ exprs, (Value.code expr).Legible
  | [], _ => List.forall_mem_nil _
  | _ :: _, readable =>
    List.forall_mem_cons.mpr ⟨readable.1.legible, Expr.AllReadable.legible readable.2⟩

end

theorem Expr.legible_of_parse {source : String} {name : Option String} {limit : Nat} {expr : Expr}
    (parsed : Expr.parse source name limit = .ok expr) : (Value.code expr).Legible := by
  have wellFormed := (Expr.wellFormed_of_parse parsed).1
  cases expr with
  | program forms =>
    exact legible_of_pieces rfl (List.forall_mem_map.mpr (Expr.AllReadable.legible wellFormed.2))
  | _ => exact Expr.Readable.legible wellFormed

/-! ### Stores -/

abbrev Store.Legible (store : Store) : Prop := store.Holds Value.Legible

theorem Binding.legible_standard : ∀ binding ∈ core ++ catalogue, binding.value.Legible :=
  common_standard rare_misspelt

end HostLisp
