import HostLisp.Proofs.Literals
import Mathlib.Data.Set.Function

/-!
Escapes in one scan. A literal is read by two replacements over its whole text, one after the other. The
first one leaves each place where the second one acts as it is, and makes no such place, so both together
do what one scan from left to right does.
-/

namespace HostLisp

namespace Expr

/-- One scan from left to right. A backslash that starts no escape is a character like others. -/
def scanned : List Char → List Char
  | '\\' :: '"' :: rest => '"' :: scanned rest
  | '\\' :: 'n' :: rest => '\n' :: scanned rest
  | c :: rest => c :: scanned rest
  | [] => []

def escapes (letter : Char) (cs : List Char) : Set (List Char × List Char) :=
  {place | cs = place.1 ++ '\\' :: letter :: place.2}

theorem unwrap_eq_iff (cs body : List Char) :
    unwrap cs = body ↔
      cs = '"' :: (body ++ ['"']) ∨ (∀ inner, cs ≠ '"' :: (inner ++ ['"'])) ∧ body = cs := by
  by_cases quoted : ∃ inner, cs = '"' :: (inner ++ ['"'])
  · obtain ⟨inner, rfl⟩ := quoted
    rw [unwrap_quoted]
    constructor
    · rintro rfl
      exact .inl rfl
    · rintro (same | ⟨bare, -⟩)
      · exact List.append_cancel_right (List.cons.inj same).2
      · exact absurd rfl (bare inner)
  · have bare : ∀ inner, cs ≠ '"' :: (inner ++ ['"']) := fun inner same => quoted ⟨inner, same⟩
    have whole : unwrap cs = cs := by
      unfold unwrap
      rw [if_neg]
      rintro ⟨long, first, last⟩
      obtain ⟨tail, rfl⟩ := List.head?_eq_some_iff.mp first
      obtain ⟨inner, same⟩ := List.getLast?_eq_some_iff.mp last
      cases inner with
      | nil =>
        cases same
        exact absurd long (by decide)
      | cons d inner =>
        cases same
        exact bare inner rfl
    rw [whole, or_iff_right (bare body), and_iff_right bare, eq_comm]

theorem escapes_cases {letter : Char} (plain : letter ≠ '\\') {cs front back front' back' : List Char}
    (here : (front, back) ∈ escapes letter cs) (there : (front', back') ∈ escapes letter cs) :
    (front, back) = (front', back') ∨ (∃ rest, front' = front ++ '\\' :: letter :: rest) ∨
      ∃ rest, front = front' ++ '\\' :: letter :: rest := by
  have within : ∀ {middle behind behind' : List Char},
      '\\' :: letter :: behind = middle ++ '\\' :: letter :: behind' →
        middle = [] ∧ behind = behind' ∨ ∃ rest, middle = '\\' :: letter :: rest := by
    intro middle behind behind' same
    match middle, same with
    | [], same =>
      cases same
      exact .inl ⟨rfl, rfl⟩
    | [_], same =>
      cases same
      exact absurd rfl plain
    | _ :: _ :: rest, same =>
      cases same
      exact .inr ⟨rest, rfl⟩
  rcases List.append_eq_append_iff.mp (Eq.trans (Eq.symm here) there) with
    ⟨middle, rfl, behind⟩ | ⟨middle, rfl, behind⟩
  · rcases within behind with ⟨rfl, rfl⟩ | ⟨rest, rfl⟩
    · exact .inl (by rw [List.append_nil])
    · exact .inr (.inl ⟨rest, rfl⟩)
  · rcases within behind with ⟨rfl, rfl⟩ | ⟨rest, rfl⟩
    · exact .inl (by rw [List.append_nil])
    · exact .inr (.inr ⟨rest, rfl⟩)

section

variable {letter replacement second : Char}

/-- A replacement goes through the parts of a text on their own, unless an escape lies across them. -/
theorem unescape_append {rest : List Char} (apart : rest.head? ≠ some letter) (front : List Char) :
    unescape letter replacement (front ++ rest) =
      unescape letter replacement front ++ unescape letter replacement rest := by
  induction front using unescape.induct letter with
  | case1 c d front escape ih =>
    rw [List.cons_append, List.cons_append, unescape, if_pos escape, unescape, if_pos escape, ih,
      List.cons_append]
  | case2 c d front none ih =>
    rw [List.cons_append, List.cons_append, unescape, if_neg none, unescape, if_neg none,
      ← List.cons_append, ih, List.cons_append]
  | case3 front short =>
    rcases front with _ | ⟨c, _ | ⟨d, front⟩⟩
    · rfl
    · exact unescape_kept apart
    · exact absurd rfl (short c d front)

theorem unescape_eq_cons {cs rest : List Char} {c : Char} (old : c ≠ replacement)
    (starts : unescape letter replacement cs = c :: rest) :
    ∃ tail, cs = c :: tail ∧ unescape letter replacement tail = rest := by
  match cs, starts with
  | [d], starts =>
    cases starts
    exact ⟨[], rfl, rfl⟩
  | d :: e :: tail, starts =>
    rw [unescape] at starts
    split at starts
    · cases starts
      exact absurd rfl old
    · cases starts
      exact ⟨e :: tail, rfl, rfl⟩

theorem exists_escape (inert : replacement ≠ '\\') (apart : second ≠ replacement) {cs : List Char} :
    ∀ {front back : List Char},
      unescape letter replacement cs = front ++ '\\' :: second :: back →
      ∃ place ∈ escapes second cs,
        unescape letter replacement place.1 = front ∧ unescape letter replacement place.2 = back := by
  induction cs using unescape.induct letter with
  | case1 c d cs escape ih =>
    intro front back found
    rw [unescape, if_pos escape] at found
    cases front with
    | nil => exact absurd (List.cons.inj found).1 inert
    | cons first front =>
      obtain ⟨same, later⟩ := List.cons.inj found
      obtain ⟨⟨before, behind⟩, among, rfl, rfl⟩ := ih later
      refine ⟨(c :: d :: before, behind), congrArg (c :: d :: ·) among, ?_, rfl⟩
      rw [unescape, if_pos escape, same]
  | case2 c d cs none ih =>
    intro front back found
    rw [unescape, if_neg none] at found
    cases front with
    | nil =>
      obtain ⟨rfl, later⟩ := List.cons.inj found
      obtain ⟨tail, same, rfl⟩ := unescape_eq_cons apart later
      exact ⟨([], tail), congrArg ('\\' :: ·) same, rfl, rfl⟩
    | cons first front =>
      obtain ⟨rfl, later⟩ := List.cons.inj found
      obtain ⟨⟨before, behind⟩, among, rfl, rfl⟩ := ih later
      refine ⟨(c :: before, behind), congrArg (c :: ·) among, ?_, rfl⟩
      cases before with
      | nil => rfl
      | cons e before =>
        cases among
        rw [unescape, if_neg none]
  | case3 cs short =>
    intro front back found
    rcases cs with _ | ⟨c, _ | ⟨d, cs⟩⟩
    · cases front <;> cases found
    · have lengths : 1 = (front ++ '\\' :: second :: back).length := congrArg List.length found
      rw [List.length_append, List.length_cons, List.length_cons] at lengths
      omega
    · exact absurd rfl (short c d cs)

variable (other : letter ≠ '\\')
include other

theorem unescape_escape (front back : List Char) :
    unescape letter replacement (front ++ '\\' :: letter :: back) =
      unescape letter replacement front ++ replacement :: unescape letter replacement back := by
  have apart : ('\\' :: letter :: back).head? ≠ some letter := fun same =>
    other (Option.some.inj same).symm
  rw [unescape_append apart, unescape, if_pos ⟨rfl, rfl⟩]

variable (plain : second ≠ '\\') (different : second ≠ letter)
include plain different

theorem unescape_other (front back : List Char) :
    unescape letter replacement (front ++ '\\' :: second :: back) =
      unescape letter replacement front ++ '\\' :: second :: unescape letter replacement back := by
  have apart : ('\\' :: second :: back).head? ≠ some letter := fun same =>
    other (Option.some.inj same).symm
  have kept : (second :: back).head? ≠ some letter := fun same => different (Option.some.inj same)
  rw [unescape_append apart, unescape_kept kept, unescape_plain plain]

theorem injOn_escapes (cs : List Char) :
    Set.InjOn (Prod.map (unescape letter replacement) (unescape letter replacement))
      (escapes second cs) := by
  have shorter : ∀ front rest, unescape letter replacement front ≠
      unescape letter replacement (front ++ '\\' :: second :: rest) := by
    intro front rest same
    rw [unescape_other other plain different] at same
    exact List.cons_ne_nil _ _ (List.self_eq_append_right.mp same)
  rintro ⟨front, back⟩ here ⟨front', back'⟩ there same
  have fronts : unescape letter replacement front = unescape letter replacement front' :=
    congrArg Prod.fst same
  rcases escapes_cases plain here there with equal | ⟨rest, rfl⟩ | ⟨rest, rfl⟩
  · exact equal
  · exact absurd fronts (shorter front rest)
  · exact absurd fronts.symm (shorter front' rest)

theorem escapes_bijOn (inert : replacement ≠ '\\') (apart : second ≠ replacement) (cs : List Char) :
    Set.BijOn (Prod.map (unescape letter replacement) (unescape letter replacement))
      (escapes second cs) (escapes second (unescape letter replacement cs)) := by
  refine ⟨?_, injOn_escapes other plain different cs, ?_⟩
  · rintro ⟨front, back⟩ rfl
    exact unescape_other other plain different front back
  · rintro ⟨front, back⟩ found
    obtain ⟨place, among, rfl, rfl⟩ := exists_escape inert apart found
    exact ⟨place, among, rfl⟩

end

theorem meaning_cons {c : Char} {rest : List Char} (quote : ∀ tail, c = '\\' → rest ≠ '"' :: tail)
    (letter : ∀ tail, c = '\\' → rest ≠ 'n' :: tail) : meaning (c :: rest) = c :: meaning rest := by
  unfold meaning
  by_cases escape : c = '\\'
  · have noQuote : rest.head? ≠ some '"' := by
      intro starts
      obtain ⟨tail, same⟩ := List.head?_eq_some_iff.mp starts
      exact quote tail escape same
    -- What the first replacement puts in is no letter of an escape.
    have noLetter : (unescape '"' '"' rest).head? ≠ some 'n' := by
      intro starts
      obtain ⟨after, same⟩ := List.head?_eq_some_iff.mp starts
      obtain ⟨tail, before, -⟩ := unescape_eq_cons (by decide) same
      exact letter tail escape before
    rw [unescape_kept noQuote, unescape_kept noLetter]
  · rw [unescape_plain escape, unescape_plain escape]

theorem meaning_eq_scanned (body : List Char) : meaning body = scanned body := by
  induction body using scanned.induct with
  | case1 rest ih =>
    rw [scanned, ← ih]
    exact meaning_quote 0 rest
  | case2 rest ih =>
    rw [scanned, ← ih]
    exact meaning_letter 0 rest
  | case3 c rest quote letter ih =>
    rw [scanned, ← ih, meaning_cons quote letter]
    · exact quote
    · exact letter
  | case4 => rfl

end Expr

/-- A literal denotes what one scan from left to right makes of the text between its double quotes, or of
the whole text where it does not stand between any. The second replacement acts on every backslash with an
`n` behind it, and it comes to just those that are there at first: each stands between what the first
replacement makes of the text in front of it and of the text behind it. -/
theorem escapes_resolved_in_one_scan (raw : String) :
    Expr.literalText raw = String.ofList (Expr.scanned (Expr.unwrap raw.toList)) ∧
    (∀ body, Expr.unwrap raw.toList = body ↔
      raw.toList = '"' :: (body ++ ['"']) ∨
        (∀ inner, raw.toList ≠ '"' :: (inner ++ ['"'])) ∧ body = raw.toList) ∧
    (∀ body, Set.BijOn (Prod.map (Expr.unescape '"' '"') (Expr.unescape '"' '"'))
      (Expr.escapes 'n' body) (Expr.escapes 'n' (Expr.unescape '"' '"' body))) ∧
    ∀ front back, Expr.unescape 'n' '\n' (front ++ '\\' :: 'n' :: back) =
      Expr.unescape 'n' '\n' front ++ '\n' :: Expr.unescape 'n' '\n' back := by
  refine ⟨?_, Expr.unwrap_eq_iff raw.toList, fun body => ?_, Expr.unescape_escape (by decide)⟩
  · rw [← Expr.meaning_eq_scanned]
    rfl
  · exact Expr.escapes_bijOn (by decide) (by decide) (by decide) (by decide) (by decide) body

/-- A backslash may stand in front of an escape. -/
example : Expr.literalText "\"\\\\\"n\\n\"" = "\\\"n\n" := by decide +kernel

end HostLisp
