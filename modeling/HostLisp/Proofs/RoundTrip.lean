import HostLisp.Proofs.Grammar
import HostLisp.Proofs.Lexemes
import HostLisp.Value.Comparison
import HostLisp.Value.Printer

/-!
Writing and reading. What the parser answers is well formed, and the source text of a well formed
expression is read back as that expression: its text splits into the tokens it was written with.
-/

namespace HostLisp

open Text Token

namespace Expr

mutual

/-- Forms that have texts of their kinds in all their symbols, numbers and strings. -/
def Readable : Expr → Prop
  | .symbol name => IsSymbol name.toList
  | .number raw _ => IsNumber raw.toList
  | .string raw => IsString raw.toList
  | .list items => AllReadable items
  | .vector items => AllReadable items
  | .quote body => Readable body
  | .program _ => False
  | .value _ _ => False

def AllReadable : List Expr → Prop
  | [] => True
  | expr :: exprs => Readable expr ∧ AllReadable exprs

end

/-- A readable form, or a program of at least two of them. -/
def WellFormed : Expr → Prop
  | .program forms => 2 ≤ forms.length ∧ AllReadable forms
  | expr => Readable expr

mutual

def anew : Expr → Expr
  | .number raw _ => .numeral raw
  | .list items => .list (anewAll items)
  | .vector items => .vector (anewAll items)
  | .quote body => .quote (anew body)
  | .program forms => .program (anewAll forms)
  | expr => expr

def anewAll : List Expr → List Expr
  | [] => []
  | expr :: exprs => anew expr :: anewAll exprs

end

mutual

theorem same_anew : ∀ expr : Expr, same (anew expr) expr = true
  | .symbol name => by simp [anew, same]
  | .number raw known => by simp [anew, same, numeral]
  | .string raw => by simp [anew, same]
  | .list items => by simp [anew, same, sameAll_anewAll items]
  | .vector items => by simp [anew, same, sameAll_anewAll items]
  | .quote body => by simp [anew, same, same_anew body]
  | .program forms => by simp [anew, same, sameAll_anewAll forms]
  | .value held stamp => by simp [anew, same]

theorem sameAll_anewAll : ∀ exprs : List Expr, sameAll (anewAll exprs) exprs = true
  | [] => by simp [anewAll, sameAll]
  | expr :: exprs => by simp [anewAll, sameAll, same_anew expr, sameAll_anewAll exprs]

end

mutual

theorem nesting_anew : ∀ expr : Expr, nesting (anew expr) = nesting expr
  | .symbol name => rfl
  | .number raw known => rfl
  | .string raw => rfl
  | .list items => by simp [anew, nesting, nestingAll_anewAll items]
  | .vector items => by simp [anew, nesting, nestingAll_anewAll items]
  | .quote body => by simp [anew, nesting, nesting_anew body]
  | .program forms => by simp [anew, nesting, nestingAll_anewAll forms]
  | .value held stamp => rfl

theorem nestingAll_anewAll : ∀ exprs : List Expr, nestingAll (anewAll exprs) = nestingAll exprs
  | [] => rfl
  | expr :: exprs => by simp [anewAll, nestingAll, nesting_anew expr, nestingAll_anewAll exprs]

end

theorem length_anewAll (exprs : List Expr) : (anewAll exprs).length = exprs.length := by
  induction exprs with
  | nil => rfl
  | cons expr exprs ih => simp [anewAll, ih]

theorem Readable.avoids_blank {expr : Expr} (readable : expr.Readable) (rest : List Char) :
    Avoids isBlank (expr.source.toList ++ rest) := by
  have atom : ∀ {cs : List Char}, cs ≠ [] → (∀ c ∈ cs, isDelimiter c = false) →
      Avoids isBlank (cs ++ rest) := by
    intro cs present plain
    obtain ⟨c, cs, rfl⟩ := List.exists_cons_of_ne_nil present
    rintro _ ⟨⟩
    have ordinary := plain c List.mem_cons_self
    simp only [isDelimiter, Bool.or_eq_false_iff] at ordinary
    exact ordinary.1.1.1
  have fixed : ∀ (c : Char) (cs : List Char), isBlank c = false → Avoids isBlank (c :: cs) := by
    rintro c cs filled _ ⟨⟩
    exact filled
  cases expr with
  | symbol name => exact atom readable.present readable.plain
  | number raw known =>
    have number : IsNumber raw.toList := readable
    exact atom (isNumber_present number) (isNumber_plain number)
  | string raw =>
    obtain ⟨body, _, same⟩ := (readable : IsString raw.toList)
    rw [Expr.source, ← same]
    exact fixed _ _ (by decide +kernel)
  | list items =>
    simp only [Expr.source, String.toList_append]
    exact fixed '(' _ (by decide +kernel)
  | vector items =>
    simp only [Expr.source, String.toList_append]
    exact fixed '[' _ (by decide +kernel)
  | quote body =>
    simp only [Expr.source, String.toList_append]
    exact fixed '\x27' _ (by decide +kernel)
  | program forms => cases readable
  | value held stamp => cases readable

theorem source_front (separator : String) (expr : Expr) (exprs : List Expr) :
    ∃ more, (separator.intercalate (Expr.sources (expr :: exprs))).toList =
      expr.source.toList ++ more := by
  cases exprs with
  | nil => exact ⟨[], by simp [Expr.sources]⟩
  | cons other exprs =>
    simp only [Expr.sources, String.intercalate_cons_cons, String.toList_append, List.append_assoc]
    exact ⟨_, rfl⟩

/-- What stands between forms: one token of layout, which ends atoms. -/
structure Separates (separator : String) : Prop where
  delimits : ∀ rest, atDelimiter (separator.toList ++ rest) = true
  lexes : ∀ rest, Avoids isBlank rest → ∃ token : Token, token.kind.isLayout = true ∧
    Lexes (separator.toList ++ rest) [token] rest

theorem separates_space : Separates " " := by
  refine ⟨fun rest => ?_, fun rest filled => ⟨⟨.blank, " "⟩, rfl, .space filled⟩⟩
  change isDelimiter ' ' = true
  decide +kernel

theorem separates_newline : Separates "\n" := by
  refine ⟨fun rest => ?_, fun rest _ => ⟨⟨.newline, "\n"⟩, rfl, .newline rest⟩⟩
  change isDelimiter '\n' = true
  decide +kernel

theorem lexes_bracket {opener closer : Char} {opening closing : Token.Kind} {inside : List Char}
    (opens : mark? opener = some opening) (closes : mark? closer = some closing)
    {tokens : List Token} (rest : List Char)
    (lexes : Lexes (inside ++ closer :: rest) tokens (closer :: rest)) :
    Lexes (opener :: (inside ++ closer :: rest))
      (⟨opening, String.ofList [opener]⟩ :: tokens ++ [⟨closing, String.ofList [closer]⟩]) rest :=
  ((Lexes.mark opens _).append lexes).append (.mark closes rest)

mutual

theorem Readable.lexes : ∀ {expr : Expr}, expr.Readable → ∀ {rest : List Char},
    atDelimiter rest = true →
      ∃ tokens, Lexes (expr.source.toList ++ rest) tokens rest ∧ Spells tokens expr.anew
  | .symbol name, readable, rest, delimited => by
    have lexes := Lexes.symbol readable delimited
    rw [String.ofList_toList] at lexes
    exact ⟨_, lexes, .symbol name⟩
  | .number raw known, readable, rest, delimited => by
    have lexes := Lexes.number readable delimited
    rw [String.ofList_toList] at lexes
    exact ⟨_, lexes, .number raw⟩
  | .string raw, readable, rest, _ => by
    have lexes := Lexes.string readable rest
    rw [String.ofList_toList] at lexes
    exact ⟨_, lexes, .string raw⟩
  | .list items, readable, rest, _ => by
    have closed := atDelimiter_of_isBracket (show isBracket ')' = true from rfl) rest
    obtain ⟨tokens, lexes, spells⟩ := AllReadable.lexes separates_space readable closed
    have text : (Expr.list items).source.toList ++ rest =
        '(' :: ((" ".intercalate (Expr.sources items)).toList ++ ')' :: rest) := by
      simp [Expr.source]
    rw [text]
    exact ⟨_, lexes_bracket rfl rfl rest lexes, .list _ _ spells⟩
  | .vector items, readable, rest, _ => by
    have closed := atDelimiter_of_isBracket (show isBracket ']' = true from rfl) rest
    obtain ⟨tokens, lexes, spells⟩ := AllReadable.lexes separates_space readable closed
    have text : (Expr.vector items).source.toList ++ rest =
        '[' :: ((" ".intercalate (Expr.sources items)).toList ++ ']' :: rest) := by
      simp [Expr.source]
    rw [text]
    exact ⟨_, lexes_bracket rfl rfl rest lexes, .vector _ _ spells⟩
  | .quote body, readable, rest, delimited => by
    have quoted : body.Readable := readable
    obtain ⟨tokens, lexes, spells⟩ := quoted.lexes delimited
    have text : (Expr.quote body).source.toList ++ rest =
        '\x27' :: (body.source.toList ++ rest) := by
      simp [Expr.source]
    rw [text]
    exact ⟨_, (Lexes.mark rfl _).append lexes, .quote _ (List.forall_mem_nil _) spells⟩

theorem AllReadable.lexes {separator : String} (separates : Separates separator) :
    ∀ {exprs : List Expr}, AllReadable exprs → ∀ {rest : List Char}, atDelimiter rest = true →
      ∃ tokens, Lexes ((separator.intercalate (Expr.sources exprs)).toList ++ rest) tokens rest ∧
        SpellsAll tokens (Expr.anewAll exprs)
  | [], _, rest, _ => ⟨[], .done rest, .done⟩
  | [expr], readable, rest, delimited => by
    obtain ⟨tokens, lexes, spells⟩ := readable.1.lexes delimited
    have one := SpellsAll.form spells .done
    rw [List.append_nil] at one
    rw [Expr.sources, Expr.sources, String.intercalate_singleton]
    exact ⟨tokens, lexes, one⟩
  | expr :: other :: exprs, readable, rest, delimited => by
    have remaining : AllReadable (other :: exprs) := readable.2
    obtain ⟨tokens, lexes, spells⟩ := remaining.lexes separates delimited
    have filled : Avoids isBlank
        ((separator.intercalate (Expr.sources (other :: exprs))).toList ++ rest) := by
      obtain ⟨more, text⟩ := source_front separator other exprs
      rw [text, List.append_assoc]
      exact remaining.1.avoids_blank (more ++ rest)
    obtain ⟨gap, layout, lexesGap⟩ := separates.lexes _ filled
    obtain ⟨front, lexesFront, spellsFront⟩ := readable.1.lexes (separates.delimits
      ((separator.intercalate (Expr.sources (other :: exprs))).toList ++ rest))
    have text : (separator.intercalate (Expr.sources (expr :: other :: exprs))).toList ++ rest =
        expr.source.toList ++ (separator.toList ++
          ((separator.intercalate (Expr.sources (other :: exprs))).toList ++ rest)) := by
      simp [Expr.sources, String.intercalate_cons_cons]
    rw [text]
    exact ⟨_, lexesFront.append (lexesGap.append lexes), .form spellsFront (.skip layout spells)⟩

end

end Expr

mutual

theorem Spells.readable {tokens : List Token} {expr : Expr} : Spells tokens expr →
    (∀ token ∈ tokens, token.Sound) → expr.Readable ∧ expr.anew = expr
  | .number text, sound => ⟨sound _ List.mem_cons_self, rfl⟩
  | .string text, sound => ⟨sound _ List.mem_cons_self, rfl⟩
  | .symbol text, sound => ⟨sound _ List.mem_cons_self, rfl⟩
  | .list opener closer inside, sound => by
    obtain ⟨readable, same⟩ := inside.readable fun token member => sound token (by simp [member])
    exact ⟨readable, congrArg Expr.list same⟩
  | .vector opener closer inside, sound => by
    obtain ⟨readable, same⟩ := inside.readable fun token member => sound token (by simp [member])
    exact ⟨readable, congrArg Expr.vector same⟩
  | .quote mark skipped quoted, sound => by
    obtain ⟨readable, same⟩ := quoted.readable fun token member => sound token (by simp [member])
    exact ⟨readable, congrArg Expr.quote same⟩

theorem SpellsAll.readable {tokens : List Token} {forms : List Expr} : SpellsAll tokens forms →
    (∀ token ∈ tokens, token.Sound) → Expr.AllReadable forms ∧ Expr.anewAll forms = forms
  | .done, _ => ⟨trivial, rfl⟩
  | .skip layout rest, sound =>
    rest.readable fun token member => sound token (List.mem_cons_of_mem _ member)
  | .form first rest, sound => by
    obtain ⟨readable, same⟩ := first.readable fun token member => sound token (by simp [member])
    obtain ⟨others, sameOthers⟩ := rest.readable fun token member => sound token (by simp [member])
    refine ⟨⟨readable, others⟩, ?_⟩
    rw [Expr.anewAll, same, sameOthers]

end

theorem Expr.parse_of_lexes {source : String} {tokens : List Token}
    (lexes : Lexes source.toList tokens []) (name : Option String) (limit : Nat) :
    Expr.parse source name limit = Expr.parseTokens tokens name limit := by
  have scanned : Token.scan source = ⟨tokens, none⟩ := lexes.scan rfl 0
  unfold Expr.parse Expr.readSource
  rw [scanned]
  rfl

theorem Expr.lexes_of_parse {source : String} {name : Option String} {limit : Nat} {expr : Expr}
    (parsed : Expr.parse source name limit = .ok expr) :
    ∃ tokens, Lexes source.toList tokens [] := by
  cases ended : (Token.scan source).unterminated with
  | none =>
    have scanned : Token.scanFrom 0 source.toList = ⟨(Token.scan source).tokens, none⟩ :=
      congrArg (Token.Scan.mk (Token.scan source).tokens) ended
    exact ⟨_, .of_scan scanned⟩
  | some offset =>
    unfold Expr.parse Expr.readSource at parsed
    simp only [ended] at parsed
    cases parsed

theorem Expr.wellFormed_root {forms : List Expr} {expr : Expr} (readable : Expr.AllReadable forms)
    (same : Expr.anewAll forms = forms)
    (root : forms = [expr] ∨ 1 < forms.length ∧ expr = .program forms) :
    expr.WellFormed ∧ expr.anew = expr := by
  rcases root with rfl | ⟨several, rfl⟩
  · have one : expr.Readable := readable.1
    refine ⟨?_, List.head_eq_of_cons_eq same⟩
    cases expr with
    | program forms => cases one
    | _ => exact one
  · exact ⟨⟨several, readable⟩, congrArg Expr.program same⟩

theorem Expr.wellFormed_of_parse {source : String} {name : Option String} {limit : Nat} {expr : Expr}
    (parsed : Expr.parse source name limit = .ok expr) :
    expr.WellFormed ∧ expr.anew = expr ∧ expr.nesting ≤ limit := by
  obtain ⟨tokens, lexes⟩ := Expr.lexes_of_parse parsed
  rw [Expr.parse_of_lexes lexes, parseTokens_iff] at parsed
  obtain ⟨forms, spells, fits, root⟩ := parsed
  obtain ⟨readable, same⟩ := spells.readable lexes.sound
  obtain ⟨wellFormed, anew⟩ := Expr.wellFormed_root readable same root
  refine ⟨wellFormed, anew, ?_⟩
  rcases root with rfl | ⟨_, rfl⟩
  · simpa [Expr.nestingAll] using fits
  · simpa [Expr.nesting] using fits

theorem Expr.Readable.parse_source {expr : Expr} (readable : expr.Readable) (name : Option String)
    {limit : Nat} (fits : expr.nesting ≤ limit) :
    Expr.parse expr.source name limit = .ok expr.anew := by
  have ended : Token.atDelimiter [] = true := rfl
  obtain ⟨tokens, lexes, spells⟩ := readable.lexes ended
  rw [List.append_nil] at lexes
  have one := SpellsAll.form spells .done
  rw [List.append_nil] at one
  rw [Expr.parse_of_lexes lexes, parseTokens_iff]
  refine ⟨[expr.anew], one, ?_, .inl rfl⟩
  simpa [Expr.nestingAll, Expr.nesting_anew] using fits

theorem Expr.WellFormed.parse_source {expr : Expr} (wellFormed : expr.WellFormed)
    (name : Option String) {limit : Nat} (fits : expr.nesting ≤ limit) :
    Expr.parse expr.source name limit = .ok expr.anew := by
  cases expr with
  | program forms =>
    obtain ⟨several, readable⟩ := wellFormed
    have ended : Token.atDelimiter [] = true := rfl
    obtain ⟨tokens, lexes, spells⟩ := readable.lexes Expr.separates_newline ended
    rw [List.append_nil] at lexes
    rw [Expr.source, Expr.parse_of_lexes lexes, parseTokens_iff]
    refine ⟨Expr.anewAll forms, spells, ?_, .inr ⟨?_, rfl⟩⟩
    · rwa [Expr.nestingAll_anewAll]
    · rwa [Expr.length_anewAll]
  | _ => exact Expr.Readable.parse_source wellFormed name fits

/-- Parsing gives well formed expressions. A well formed expression within the limit is read back from
its source text, equal to what it was. So reading, writing and reading again is reading once. -/
theorem source_round_trip (name : Option String) (limit : Nat) :
    (∀ source expr, Expr.parse source name limit = .ok expr → expr.WellFormed) ∧
    (∀ expr : Expr, expr.WellFormed → expr.nesting ≤ limit →
      Expr.parse expr.source name limit = .ok expr.anew ∧ expr.anew.same expr = true) ∧
    ∀ source expr, Expr.parse source name limit = .ok expr →
      Expr.parse expr.source name limit = .ok expr := by
  refine ⟨fun source expr parsed => (Expr.wellFormed_of_parse parsed).1, ?_, ?_⟩
  · intro expr wellFormed fits
    exact ⟨wellFormed.parse_source name fits, expr.same_anew⟩
  · intro source expr parsed
    obtain ⟨wellFormed, anew, fits⟩ := Expr.wellFormed_of_parse parsed
    have again := wellFormed.parse_source name fits
    rwa [anew] at again

theorem source_round_trip_list :
    let expr : Expr := .list [.string "\"a\"", .quote (.numeral "1")]
    expr.WellFormed ∧ Expr.parse expr.source none 2 = .ok expr ∧
      Expr.parse (Expr.source expr) (some "again") 2 = .ok expr := by
  intro expr
  have string : IsString "\"a\"".toList :=
    ⟨['a'], .plain (by decide) (by decide) .done, by decide⟩
  have number : IsNumber "1".toList := by
    refine ⟨⟨none, ['1'], none, none⟩, ⟨nofun, ?_, nofun, nofun, nofun⟩, by decide⟩
    simp only [List.mem_singleton, forall_eq]
    decide +kernel
  have wellFormed : expr.WellFormed := ⟨string, number, trivial⟩
  have fits : expr.nesting ≤ 2 := by
    simp [expr, Expr.nesting, Expr.nestingAll, Expr.numeral]
  have parsed := ((source_round_trip none 2).2.1 expr wellFormed fits).1
  have again := ((source_round_trip (some "again") 2).2.1 expr wellFormed fits).1
  refine ⟨(source_round_trip none 2).1 _ expr parsed, (source_round_trip none 2).2.2 _ expr parsed, ?_⟩
  exact (source_round_trip (some "again") 2).2.2 _ expr again

end HostLisp
