import HostLisp.Expr.Reading

/-!
The grammar of programs over tokens. The reader accepts what the grammar derives, as long as there is
room for the nesting, and nothing else; what it builds is the only derivation there is.
-/

namespace HostLisp

mutual

/-- Tokens that spell one form. -/
inductive Spells : List Token → Expr → Prop where
  | number (text : String) : Spells [⟨.number, text⟩] (.numeral text)
  | string (text : String) : Spells [⟨.string, text⟩] (.string text)
  | symbol (text : String) : Spells [⟨.symbol, text⟩] (.symbol text)
  | list (opener closer : String) {tokens : List Token} {items : List Expr}
      (inside : SpellsAll tokens items) :
      Spells (⟨.openList, opener⟩ :: tokens ++ [⟨.closeList, closer⟩]) (.list items)
  | vector (opener closer : String) {tokens : List Token} {items : List Expr}
      (inside : SpellsAll tokens items) :
      Spells (⟨.openVector, opener⟩ :: tokens ++ [⟨.closeVector, closer⟩]) (.vector items)
  | quote (mark : String) {layout tokens : List Token} {body : Expr}
      (skipped : ∀ token ∈ layout, token.kind.isLayout = true) (quoted : Spells tokens body) :
      Spells (⟨.quote, mark⟩ :: layout ++ tokens) (.quote body)

inductive SpellsAll : List Token → List Expr → Prop where
  | done : SpellsAll [] []
  | skip {token : Token} {tokens : List Token} {forms : List Expr}
      (layout : token.kind.isLayout = true) (rest : SpellsAll tokens forms) :
      SpellsAll (token :: tokens) forms
  | form {front tokens : List Token} {form : Expr} {forms : List Expr} (first : Spells front form)
      (rest : SpellsAll tokens forms) : SpellsAll (front ++ tokens) (form :: forms)

end

mutual

def Expr.nesting : Expr → Nat
  | .list items => Expr.nestingAll items + 1
  | .vector items => Expr.nestingAll items + 1
  | .quote body => Expr.nesting body + 1
  | .program forms => Expr.nestingAll forms
  | _ => 0

def Expr.nestingAll : List Expr → Nat
  | [] => 0
  | expr :: exprs => max (Expr.nesting expr) (Expr.nestingAll exprs)

end

namespace Reading

/-- The next form is for a bracket or for the top, and not for a quote mark. -/
def Ready (reading : Reading) : Prop := reading.stack.head? ≠ some .quote

theorem finish_ready {reading : Reading} (ready : reading.Ready) (form : Expr) :
    (reading.finish form).stack.length = reading.stack.length ∧ (reading.finish form).Ready := by
  obtain ⟨stack, forms⟩ := reading
  cases stack with
  | nil => exact ⟨rfl, nofun⟩
  | cons frame stack =>
    cases frame with
    | list items => exact ⟨rfl, nofun⟩
    | vector items => exact ⟨rfl, nofun⟩
    | quote => exact absurd rfl ready

theorem foldl_finish (holding : List Expr → Reading)
    (takes : ∀ form held, (holding held).finish form = holding (form :: held)) (forms : List Expr) :
    ∀ held, forms.foldl finish (holding held) = holding (forms.reverse ++ held) := by
  induction forms with
  | nil => exact fun _ => rfl
  | cons form forms ih =>
    intro held
    rw [List.foldl_cons, takes, List.reverse_cons, List.append_assoc]
    exact ih (form :: held)

theorem run_cons_ok {limit : Nat} {reading next : Reading} {token : Token}
    (took : reading.step limit token = .ok next) (tokens : List Token) :
    reading.run limit (token :: tokens) = next.run limit tokens := by
  rw [run, took]

theorem run_cons_error {limit : Nat} {reading : Reading} {token : Token} {error : ReadError}
    (refused : reading.step limit token = .error error) (tokens : List Token) :
    reading.run limit (token :: tokens) = (reading, some error) := by
  rw [run, refused]

theorem step_layout (limit : Nat) (reading : Reading) {token : Token}
    (layout : token.kind.isLayout = true) : reading.step limit token = .ok reading := by
  obtain ⟨kind, text⟩ := token
  cases kind with
  | comment | blank | newline => rfl
  | _ => cases layout

theorem run_layout (limit : Nat) (reading : Reading) (rest : List Token) {layout : List Token}
    (skipped : ∀ token ∈ layout, token.kind.isLayout = true) :
    reading.run limit (layout ++ rest) = reading.run limit rest := by
  induction layout with
  | nil => rfl
  | cons token layout ih =>
    rw [List.cons_append, run_cons_ok (step_layout limit reading (skipped token (by simp)))]
    exact ih fun other inside => skipped other (List.mem_cons_of_mem token inside)

theorem enter_of_lt {limit : Nat} {reading : Reading} (room : reading.stack.length < limit)
    (frame : Frame) : reading.enter limit frame = .ok ⟨frame :: reading.stack, reading.forms⟩ :=
  if_pos room

theorem enter_of_le {limit : Nat} {reading : Reading} (full : limit ≤ reading.stack.length)
    (frame : Frame) : reading.enter limit frame = .error .nestingTooDeep :=
  if_neg (Nat.not_lt.mpr full)

theorem run_bracket {limit : Nat} {reading : Reading} (frame : List Expr → Frame)
    (make : List Expr → Expr) {opener closer : Token}
    (opens : reading.step limit opener = reading.enter limit (frame []))
    (takes : ∀ form held, finish ⟨frame held :: reading.stack, reading.forms⟩ form =
      ⟨frame (form :: held) :: reading.stack, reading.forms⟩)
    (closes : ∀ held, step limit ⟨frame held :: reading.stack, reading.forms⟩ closer =
      .ok (reading.finish (make held.reverse)))
    (room : reading.stack.length < limit) {tokens : List Token} {items : List Expr}
    (inside : ∀ rest, run limit ⟨frame [] :: reading.stack, reading.forms⟩ (tokens ++ rest) =
      run limit (items.foldl finish ⟨frame [] :: reading.stack, reading.forms⟩) rest)
    (rest : List Token) :
    reading.run limit (opener :: tokens ++ [closer] ++ rest) =
      (reading.finish (make items)).run limit rest := by
  have entered := opens.trans (enter_of_lt room (frame []))
  rw [List.append_assoc, List.cons_append, run_cons_ok entered, inside]
  rw [foldl_finish (fun held => ⟨frame held :: reading.stack, reading.forms⟩) takes]
  have closed := closes (items.reverse ++ [])
  rw [List.append_nil, List.reverse_reverse] at closed
  rw [List.append_nil]
  exact run_cons_ok closed rest

theorem run_tooDeep_of_inside {limit : Nat} {reading : Reading} {frame : Frame} {opener : Token}
    (opens : reading.step limit opener = reading.enter limit frame) {tokens : List Token}
    (inside : reading.stack.length < limit →
      (run limit ⟨frame :: reading.stack, reading.forms⟩ tokens).2 = some .nestingTooDeep) :
    (reading.run limit (opener :: tokens)).2 = some .nestingTooDeep := by
  by_cases room : reading.stack.length < limit
  · rw [run_cons_ok (opens.trans (enter_of_lt room frame))]
    exact inside room
  · rw [run_cons_error (opens.trans (enter_of_le (Nat.not_lt.mp room) frame))]

end Reading

open Reading

mutual

theorem Spells.run_of_fits {tokens : List Token} {expr : Expr} (limit : Nat) (reading : Reading)
    (rest : List Token) :
    Spells tokens expr → reading.stack.length + expr.nesting ≤ limit →
      reading.run limit (tokens ++ rest) = (reading.finish expr).run limit rest
  | .number text, _ => rfl
  | .string text, _ => rfl
  | .symbol text, _ => rfl
  | .list opener closer inside, fits => by
    rw [Expr.nesting] at fits
    refine run_bracket .list .list rfl (fun _ _ => rfl) (fun _ => rfl) (by omega) (fun rest => ?_) rest
    exact inside.run_of_fits limit _ rest nofun (by simp only [List.length_cons]; omega)
  | .vector opener closer inside, fits => by
    rw [Expr.nesting] at fits
    refine run_bracket .vector .vector rfl (fun _ _ => rfl) (fun _ => rfl) (by omega) (fun rest => ?_)
      rest
    exact inside.run_of_fits limit _ rest nofun (by simp only [List.length_cons]; omega)
  | .quote mark skipped quoted, fits => by
    rw [Expr.nesting] at fits
    have entered : reading.step limit ⟨.quote, mark⟩ = .ok ⟨.quote :: reading.stack, reading.forms⟩ :=
      enter_of_lt (by omega) .quote
    rw [List.append_assoc, List.cons_append, run_cons_ok entered, run_layout limit _ _ skipped]
    exact quoted.run_of_fits limit _ rest (by simp only [List.length_cons]; omega)

theorem SpellsAll.run_of_fits {tokens : List Token} {forms : List Expr} (limit : Nat)
    (reading : Reading) (rest : List Token) :
    SpellsAll tokens forms → reading.Ready →
      reading.stack.length + Expr.nestingAll forms ≤ limit →
      reading.run limit (tokens ++ rest) = (forms.foldl finish reading).run limit rest
  | .done, _, _ => rfl
  | .skip layout others, ready, fits => by
    rw [List.cons_append, run_cons_ok (step_layout limit reading layout)]
    exact others.run_of_fits limit reading rest ready fits
  | @SpellsAll.form _ _ form _ first others, ready, fits => by
    rw [Expr.nestingAll] at fits
    obtain ⟨same, ready⟩ := finish_ready ready form
    rw [List.append_assoc, first.run_of_fits limit reading _ (by omega)]
    exact others.run_of_fits limit _ rest ready (by omega)

end

mutual

theorem Spells.run_of_tooDeep {tokens : List Token} {expr : Expr} (limit : Nat) (reading : Reading)
    (rest : List Token) :
    Spells tokens expr → reading.stack.length ≤ limit →
      limit < reading.stack.length + expr.nesting →
      (reading.run limit (tokens ++ rest)).2 = some .nestingTooDeep
  | .number _, within, deep => absurd deep (Nat.not_lt.mpr within)
  | .string _, within, deep => absurd deep (Nat.not_lt.mpr within)
  | .symbol _, within, deep => absurd deep (Nat.not_lt.mpr within)
  | .list opener closer inside, _, deep => by
    rw [Expr.nesting] at deep
    rw [List.append_assoc, List.cons_append]
    refine run_tooDeep_of_inside rfl fun room => ?_
    exact inside.run_of_tooDeep limit _ _ nofun (by simp only [List.length_cons]; omega)
      (by simp only [List.length_cons]; omega)
  | .vector opener closer inside, _, deep => by
    rw [Expr.nesting] at deep
    rw [List.append_assoc, List.cons_append]
    refine run_tooDeep_of_inside rfl fun room => ?_
    exact inside.run_of_tooDeep limit _ _ nofun (by simp only [List.length_cons]; omega)
      (by simp only [List.length_cons]; omega)
  | .quote mark skipped quoted, _, deep => by
    rw [Expr.nesting] at deep
    rw [List.append_assoc, List.cons_append]
    refine run_tooDeep_of_inside rfl fun room => ?_
    rw [run_layout limit _ _ skipped]
    exact quoted.run_of_tooDeep limit _ rest (by simp only [List.length_cons]; omega)
      (by simp only [List.length_cons]; omega)

theorem SpellsAll.run_of_tooDeep {tokens : List Token} {forms : List Expr} (limit : Nat)
    (reading : Reading) (rest : List Token) :
    SpellsAll tokens forms → reading.Ready → reading.stack.length ≤ limit →
      limit < reading.stack.length + Expr.nestingAll forms →
      (reading.run limit (tokens ++ rest)).2 = some .nestingTooDeep
  | .done, _, within, deep => absurd deep (Nat.not_lt.mpr within)
  | .skip layout others, ready, within, deep => by
    rw [List.cons_append, run_cons_ok (step_layout limit reading layout)]
    exact others.run_of_tooDeep limit reading rest ready within deep
  | @SpellsAll.form _ _ form _ first others, ready, within, deep => by
    rw [Expr.nestingAll] at deep
    rw [List.append_assoc]
    by_cases fits : reading.stack.length + form.nesting ≤ limit
    · obtain ⟨same, ready⟩ := finish_ready ready form
      rw [first.run_of_fits limit reading _ fits]
      exact others.run_of_tooDeep limit _ rest ready (by omega) (by omega)
    · exact first.run_of_tooDeep limit reading _ within (by omega)

end

theorem SpellsAll.readForms_of_fits {tokens : List Token} {forms : List Expr} {limit : Nat}
    (spells : SpellsAll tokens forms) (fits : Expr.nestingAll forms ≤ limit) :
    Expr.readForms tokens limit = (forms, none) := by
  have ran := spells.run_of_fits limit .start [] nofun (by simpa [start] using fits)
  rw [List.append_nil, start, foldl_finish (fun held => ⟨[], held⟩) (fun _ _ => rfl)] at ran
  rw [Expr.readForms, start, ran]
  simp [run]

theorem SpellsAll.readForms_of_tooDeep {tokens : List Token} {forms : List Expr} {limit : Nat}
    (spells : SpellsAll tokens forms) (deep : limit < Expr.nestingAll forms) :
    (Expr.readForms tokens limit).2 = some .nestingTooDeep := by
  have ran := spells.run_of_tooDeep limit .start [] nofun (Nat.zero_le _) (by simpa [start] using deep)
  rwa [List.append_nil] at ran

theorem SpellsAll.unique {tokens : List Token} {forms others : List Expr}
    (spells : SpellsAll tokens forms) (spellsOthers : SpellsAll tokens others) : forms = others := by
  have first := spells.readForms_of_fits
    (Nat.le_max_left (Expr.nestingAll forms) (Expr.nestingAll others))
  have second := spellsOthers.readForms_of_fits
    (Nat.le_max_right (Expr.nestingAll forms) (Expr.nestingAll others))
  exact congrArg Prod.fst (first.symm.trans second)

namespace SpellsAll

theorem thenForm {tokens piece : List Token} {forms : List Expr} {form : Expr}
    (last : Spells piece form) : SpellsAll tokens forms → SpellsAll (tokens ++ piece) (forms ++ [form])
  | .done => by
    have one := SpellsAll.form last .done
    rwa [List.append_nil] at one
  | .skip layout rest => .skip layout (rest.thenForm last)
  | .form first rest => by
    rw [List.append_assoc]
    exact .form first (rest.thenForm last)

theorem thenLayout {tokens : List Token} {token : Token} {forms : List Expr}
    (last : token.kind.isLayout = true) : SpellsAll tokens forms → SpellsAll (tokens ++ [token]) forms
  | .done => .skip last .done
  | .skip layout rest => .skip layout (rest.thenLayout last)
  | .form first rest => by
    rw [List.append_assoc]
    exact .form first (rest.thenLayout last)

end SpellsAll

/-- The tokens taken so far, told from the open frames and the finished forms. -/
inductive Pending : List Token → List Frame → List Expr → Prop where
  | top {tokens : List Token} {forms : List Expr} (spells : SpellsAll tokens forms.reverse) :
      Pending tokens [] forms
  | list {tokens inner : List Token} {items forms : List Expr} {stack : List Frame}
      (outer : Pending tokens stack forms) (opener : String)
      (inside : SpellsAll inner items.reverse) :
      Pending (tokens ++ ⟨.openList, opener⟩ :: inner) (.list items :: stack) forms
  | vector {tokens inner : List Token} {items forms : List Expr} {stack : List Frame}
      (outer : Pending tokens stack forms) (opener : String)
      (inside : SpellsAll inner items.reverse) :
      Pending (tokens ++ ⟨.openVector, opener⟩ :: inner) (.vector items :: stack) forms
  | quote {tokens layout : List Token} {forms : List Expr} {stack : List Frame}
      (outer : Pending tokens stack forms) (mark : String)
      (skipped : ∀ token ∈ layout, token.kind.isLayout = true) :
      Pending (tokens ++ ⟨.quote, mark⟩ :: layout) (.quote :: stack) forms

namespace Pending

variable {tokens : List Token} {stack : List Frame} {forms : List Expr}

theorem place (pending : Pending tokens stack forms) {piece : List Token} {form : Expr}
    (spells : Spells piece form) :
    Pending (tokens ++ piece) (Reading.place form stack forms).stack
      (Reading.place form stack forms).forms := by
  induction pending generalizing piece form with
  | top before =>
    refine .top ?_
    rw [Reading.place, List.reverse_cons]
    exact before.thenForm spells
  | list outer opener inside ih =>
    rw [List.append_assoc]
    refine .list outer opener ?_
    rw [List.reverse_cons]
    exact inside.thenForm spells
  | vector outer opener inside ih =>
    rw [List.append_assoc]
    refine .vector outer opener ?_
    rw [List.reverse_cons]
    exact inside.thenForm spells
  | quote outer mark skipped ih =>
    rw [List.append_assoc]
    exact ih (.quote mark skipped spells)

theorem layout (pending : Pending tokens stack forms) {token : Token}
    (layout : token.kind.isLayout = true) : Pending (tokens ++ [token]) stack forms := by
  cases pending with
  | top before => exact .top (before.thenLayout layout)
  | list outer opener inside =>
    rw [List.append_assoc]
    exact .list outer opener (inside.thenLayout layout)
  | vector outer opener inside =>
    rw [List.append_assoc]
    exact .vector outer opener (inside.thenLayout layout)
  | quote outer mark skipped =>
    rw [List.append_assoc]
    refine .quote outer mark fun other inside => ?_
    rcases List.mem_append.mp inside with old | new
    · exact skipped other old
    · exact List.mem_singleton.mp new ▸ layout

theorem enter {reading next : Reading} {limit : Nat} {token : Token} {frame : Frame}
    (entered : reading.enter limit frame = .ok next)
    (pending : Pending (tokens ++ [token]) (frame :: reading.stack) reading.forms) :
    Pending (tokens ++ [token]) next.stack next.forms := by
  unfold Reading.enter at entered
  split at entered
  · cases entered
    exact pending
  · cases entered

theorem step {reading next : Reading} (pending : Pending tokens reading.stack reading.forms)
    {limit : Nat} {token : Token} (took : reading.step limit token = .ok next) :
    Pending (tokens ++ [token]) next.stack next.forms := by
  obtain ⟨kind, text⟩ := token
  cases kind with
  | comment | blank | newline =>
    cases took
    exact pending.layout rfl
  | number =>
    cases took
    exact pending.place (.number text)
  | string =>
    cases took
    exact pending.place (.string text)
  | symbol =>
    cases took
    exact pending.place (.symbol text)
  | openList => exact enter took (.list pending text .done)
  | openVector => exact enter took (.vector pending text .done)
  | quote => exact enter took (.quote pending text nofun)
  | closeList =>
    obtain ⟨stack, forms⟩ := reading
    simp only [Reading.step] at took
    split at took
    · cases took
      cases pending with
      | list outer opener inside =>
        rw [List.append_assoc]
        exact outer.place (.list opener text inside)
    · cases took
  | closeVector =>
    obtain ⟨stack, forms⟩ := reading
    simp only [Reading.step] at took
    split at took
    · cases took
      cases pending with
      | vector outer opener inside =>
        rw [List.append_assoc]
        exact outer.place (.vector opener text inside)
    · cases took
  | foreign label => cases took

theorem run {reading : Reading} (pending : Pending tokens reading.stack reading.forms) {limit : Nat}
    {rest : List Token} (ended : (reading.run limit rest).2 = none) :
    SpellsAll (tokens ++ rest) (reading.run limit rest).1.forms.reverse := by
  induction rest generalizing tokens reading with
  | nil =>
    rw [List.append_nil]
    obtain ⟨stack, forms⟩ := reading
    cases pending with
    | top spells => exact spells
    | list | vector | quote => cases ended
  | cons token rest ih =>
    cases took : reading.step limit token with
    | ok next =>
      rw [Reading.run_cons_ok took] at ended ⊢
      have spells := ih (pending.step took) ended
      rwa [List.append_assoc] at spells
    | error error =>
      rw [Reading.run_cons_error took] at ended
      cases ended

end Pending

theorem readForms_iff (tokens : List Token) (limit : Nat) (forms : List Expr) :
    Expr.readForms tokens limit = (forms, none) ↔
      SpellsAll tokens forms ∧ Expr.nestingAll forms ≤ limit := by
  constructor
  · intro read
    have ended : (Reading.start.run limit tokens).2 = none := congrArg Prod.snd read
    have empty : Pending [] Reading.start.stack Reading.start.forms := .top .done
    have spells := empty.run ended
    rw [List.nil_append] at spells
    rw [show (Reading.start.run limit tokens).1.forms.reverse = forms from congrArg Prod.fst read]
      at spells
    refine ⟨spells, Nat.not_lt.mp fun deep => ?_⟩
    have refused := spells.readForms_of_tooDeep deep
    rw [read] at refused
    cases refused
  · exact fun spelt => spelt.1.readForms_of_fits spelt.2

theorem Expr.ofForms_iff (forms : List Expr) (expr : Expr) :
    Expr.ofForms forms = .ok expr ↔
      forms = [expr] ∨ 1 < forms.length ∧ expr = .program forms := by
  match forms with
  | [] => simp [Expr.ofForms]
  | [form] => simp [Expr.ofForms]
  | form :: other :: forms => simp [Expr.ofForms, eq_comm]

theorem parseTokens_iff (tokens : List Token) (name : Option String) (limit : Nat) (expr : Expr) :
    Expr.parseTokens tokens name limit = .ok expr ↔
      ∃ forms, SpellsAll tokens forms ∧ Expr.nestingAll forms ≤ limit ∧
        (forms = [expr] ∨ 1 < forms.length ∧ expr = .program forms) := by
  unfold Expr.parseTokens Expr.ofOutcome
  constructor
  · intro parsed
    split at parsed
    · cases parsed
    · next ended =>
      split at parsed
      · next root =>
        cases parsed
        have read : Expr.readForms tokens limit = ((Expr.readForms tokens limit).1, none) :=
          Prod.ext rfl ended
        obtain ⟨spells, fits⟩ := (readForms_iff tokens limit _).mp read
        exact ⟨_, spells, fits, (Expr.ofForms_iff _ _).mp root⟩
      · cases parsed
  · rintro ⟨forms, spells, fits, root⟩
    rw [spells.readForms_of_fits fits]
    simp only [(Expr.ofForms_iff forms expr).mpr root]

theorem parseTokens_tooDeep {tokens : List Token} {forms : List Expr} (spells : SpellsAll tokens forms)
    (name : Option String) {limit : Nat} (deep : limit < Expr.nestingAll forms) :
    Expr.parseTokens tokens name limit = .error ⟨.nestingTooDeep, name⟩ := by
  unfold Expr.parseTokens Expr.ofOutcome
  rw [spells.readForms_of_tooDeep deep]

/-- Unless it runs out of nesting, the parser succeeds exactly on the tokens that spell forms, at least
one, and answers the form or the program of the forms. There is one way to spell tokens out, and all
of them belong to it. The nesting runs out exactly where the forms nest more deeply than the limit. -/
theorem parses_exactly_grammar (tokens : List Token) (name : Option String) (limit : Nat) :
    (Expr.parseTokens tokens name limit ≠ .error ⟨.nestingTooDeep, name⟩ → ∀ expr,
      (Expr.parseTokens tokens name limit = .ok expr ↔ ∃ forms, SpellsAll tokens forms ∧
        (forms = [expr] ∨ 1 < forms.length ∧ expr = .program forms))) ∧
    (∀ forms, SpellsAll tokens forms →
      (Expr.parseTokens tokens name limit = .error ⟨.nestingTooDeep, name⟩ ↔
        limit < Expr.nestingAll forms)) ∧
    ∀ forms others, SpellsAll tokens forms → SpellsAll tokens others → forms = others := by
  refine ⟨?_, ?_, fun forms others spells spellsOthers => spells.unique spellsOthers⟩
  · intro roomy expr
    rw [parseTokens_iff]
    constructor
    · rintro ⟨forms, spells, _, root⟩
      exact ⟨forms, spells, root⟩
    · rintro ⟨forms, spells, root⟩
      refine ⟨forms, spells, Nat.not_lt.mp fun deep => ?_, root⟩
      exact roomy (parseTokens_tooDeep spells name deep)
  · intro forms spells
    refine ⟨fun refused => Nat.lt_of_not_le fun fits => ?_, parseTokens_tooDeep spells name⟩
    unfold Expr.parseTokens Expr.ofOutcome at refused
    rw [spells.readForms_of_fits fits] at refused
    match forms with
    | [] | [_] | _ :: _ :: _ => cases refused

theorem parses_exactly_grammar_quoted :
    let tokens : List Token := [⟨.openList, "("⟩, ⟨.symbol, "a"⟩, ⟨.blank, " "⟩, ⟨.quote, "'"⟩,
      ⟨.number, "1"⟩, ⟨.closeList, ")"⟩]
    (∃ forms, SpellsAll tokens forms ∧ forms = [.list [.symbol "a", .quote (.numeral "1")]]) ∧
      Expr.parseTokens tokens none 1 = .error ⟨.nestingTooDeep, none⟩ := by
  intro tokens
  have parsed : Expr.parseTokens tokens none 2 =
      .ok (.list [.symbol "a", .quote (.numeral "1")]) := rfl
  obtain ⟨accepts, _, unique⟩ := parses_exactly_grammar tokens none 2
  obtain ⟨forms, spells, root⟩ := (accepts (by rw [parsed]; nofun) _).mp parsed
  have tree : forms = [.list [.symbol "a", .quote (.numeral "1")]] := by
    rcases root with one | ⟨_, several⟩
    · exact (unique forms forms spells spells).trans one
    · cases several
  refine ⟨⟨forms, spells, tree⟩, ?_⟩
  refine ((parses_exactly_grammar tokens none 1).2.1 forms spells).mpr ?_
  rw [tree]
  simp [Expr.nestingAll, Expr.nesting, Expr.numeral]

end HostLisp
