import HostLisp.Proofs.Segmentation
import Mathlib.Data.List.Chain

/-!
Where tokens end. What a token needs of the character after it depends on its kind and, for a carriage
return, on its text; apart from that the lexer looks at the token alone. So which tokens may stand next
to each other is told pair by pair: a list of tokens is what the lexer makes of their texts exactly when
each of them has a text of its kind and no two neighbours run together.
-/

namespace HostLisp

namespace Token

open Text

def Stops (kind : Kind) (chars : List Char) (next : Option Char) : Prop :=
  match kind with
  | .number | .symbol => ∀ c ∈ next, isDelimiter c = true
  | .blank => (∀ c ∈ next, continuesBlank c = false) ∧ (chars = ['\r'] → next ≠ some '\n')
  | .comment => ∀ c ∈ next, c = '\n'
  | _ => True

/-- Two tokens stay apart when the second stands right after the first. -/
def Follows (token next : Token) : Prop :=
  match token.kind with
  | .number | .symbol => next.kind ≠ .number ∧ next.kind ≠ .symbol ∧ next.kind ≠ .quote
  | .blank => next.kind ≠ .blank ∧ next ≠ ⟨.newline, "\r\n"⟩ ∧
      (token.text = "\r" → next ≠ ⟨.newline, "\n"⟩)
  | .comment => next = ⟨.newline, "\n"⟩
  | _ => True

instance : DecidableRel Follows := fun token next => by
  unfold Follows
  split <;> infer_instance

/-- Only a carriage return that stands alone joins the line end after it. -/
example : [⟨.blank, " \r"⟩, ⟨.newline, "\n"⟩, ⟨.newline, "\r\n"⟩].IsChain Follows ∧
    ¬Follows ⟨.blank, "\r"⟩ ⟨.newline, "\n"⟩ := by decide

theorem atDelimiter_iff (rest : List Char) :
    atDelimiter rest = true ↔ ∀ c ∈ rest.head?, isDelimiter c = true := by
  cases rest with
  | nil => simp [atDelimiter]
  | cons c rest => simp [atDelimiter]

/-! ### One token -/

theorem stops_blank {c : Char} {cs : List Char} (lone : ¬(c = '\r' ∧ cs.head? = some '\n')) :
    Stops .blank (c :: cs.takeWhile continuesBlank) (cs.dropWhile continuesBlank).head? := by
  refine ⟨fun d starts => ?_, fun same next => lone ?_⟩
  · have stop := List.head?_dropWhile_not continuesBlank cs
    rw [Option.mem_def.mp starts] at stop
    simpa using stop
  · obtain ⟨carriage, nothing⟩ := List.cons.inj same
    have whole := List.takeWhile_append_dropWhile (p := continuesBlank) (l := cs)
    rw [nothing, List.nil_append] at whole
    exact ⟨carriage, whole ▸ next⟩

theorem stops_comment (chars cs : List Char) :
    Stops .comment chars (cs.dropWhile continuesComment).head? := by
  intro d starts
  have stop := List.head?_dropWhile_not continuesComment cs
  rw [Option.mem_def.mp starts] at stop
  simpa [continuesComment] using stop

theorem stops_atom (c : Char) (cs : List Char) :
    Stops (atom c cs).1 (atom c cs).2.1 (atom c cs).2.2.head? := by
  unfold atom
  split
  · next lexeme found =>
    obtain ⟨kind, _, delimited⟩ := isNumber_of_number? found
    rw [kind]
    exact (atDelimiter_iff _).mp delimited
  · exact (atDelimiter_iff _).mp (atDelimiter_dropWhile cs)

theorem stops_first? {c : Char} {cs chars rest : List Char} {kind : Kind}
    (found : first? c cs = some (kind, chars, rest)) : Stops kind chars rest.head? := by
  unfold first? at found
  split at found
  · cases found
    trivial
  split at found
  · cases found
    trivial
  next lone =>
  split at found
  · cases found
    exact stops_blank lone
  split at found
  · cases found
    exact stops_comment _ cs
  split at found
  · obtain ⟨⟨tail, after⟩, _, same⟩ := Option.map_eq_some_iff.mp found
    cases same
    trivial
  split at found
  · next marked =>
    cases found
    unfold mark? at marked
    grind [Stops]
  · have stops := stops_atom c cs
    rwa [Option.some.inj found] at stops

namespace Lexes

theorem blank {chars rest : List Char} (admits : Kind.blank.Admits chars)
    (stops : Stops .blank chars rest.head?) :
    Lexes (chars ++ rest) [⟨.blank, String.ofList chars⟩] rest := by
  obtain ⟨present, each⟩ := admits
  obtain ⟨c, cs, rfl⟩ := List.exists_cons_of_ne_nil present
  obtain ⟨⟨blank, other⟩, within⟩ := List.forall_mem_cons.mp each
  obtain ⟨ends, lone⟩ := stops
  have continues : ∀ d ∈ cs, continuesBlank d = true := by
    intro d inside
    simpa [continuesBlank] using within d inside
  obtain ⟨taken, left⟩ := takeWhile_avoids continues ends
  have single : ¬(c = '\r' ∧ (cs ++ rest).head? = some '\n') := by
    rintro ⟨rfl, next⟩
    cases cs with
    | nil => exact lone rfl next
    | cons d cs => exact (within d List.mem_cons_self).2 (Option.some.inj next)
  have first : first? c (cs ++ rest) = some (.blank, c :: cs, rest) := by
    rw [first?, if_neg other, if_neg single, if_pos blank, taken, left]
  exact .one first

theorem comment {chars rest : List Char} (admits : Kind.comment.Admits chars)
    (stops : Stops .comment chars rest.head?) :
    Lexes (chars ++ rest) [⟨.comment, String.ofList chars⟩] rest := by
  obtain ⟨remark, rfl, within⟩ := admits
  have continues : ∀ c ∈ remark, continuesComment c = true := by
    intro c inside
    simpa [continuesComment] using within c inside
  have ends : Avoids continuesComment rest := by
    intro c starts
    simpa [continuesComment] using stops c starts
  obtain ⟨taken, left⟩ := takeWhile_avoids continues ends
  have filled : isBlank ';' = false := by decide +kernel
  have first : first? ';' (remark ++ rest) = some (.comment, ';' :: remark, rest) := by
    simp [first?, filled, taken, left]
  exact .one first

theorem of_admits {kind : Kind} {chars rest : List Char} (admits : kind.Admits chars)
    (stops : Stops kind chars rest.head?) :
    Lexes (chars ++ rest) [⟨kind, String.ofList chars⟩] rest := by
  cases kind with
  | number => exact .number admits ((atDelimiter_iff rest).mpr stops)
  | symbol => exact .symbol admits ((atDelimiter_iff rest).mpr stops)
  | string => exact .string admits rest
  | blank => exact .blank admits stops
  | comment => exact .comment admits stops
  | newline =>
    rcases admits with rfl | rfl
    · exact .newline rest
    · exact .one rfl
  | openList | closeList | openVector | closeVector | quote =>
    subst admits
    exact .mark rfl rest
  | foreign label => exact admits.elim

end Lexes

theorem lexes_one_iff {token : Token} {cs rest : List Char} :
    Lexes cs [token] rest ↔ token.text.toList ++ rest = cs ∧ token.kind.Admits token.text.toList ∧
      Stops token.kind token.text.toList rest.head? := by
  constructor
  · rintro (_ | ⟨found, others⟩)
    cases others
    rw [String.toList_ofList]
    exact ⟨(first?_append found).1, admits_first? found, stops_first? found⟩
  · rintro ⟨rfl, admits, stops⟩
    have lexes := Lexes.of_admits admits stops
    rwa [String.ofList_toList] at lexes

/-! ### Neighbours -/

structure Starts (kind : Kind) (chars : List Char) (c : Char) : Prop where
  delimiter : isDelimiter c = true ↔ kind ≠ .number ∧ kind ≠ .symbol ∧ kind ≠ .quote
  blank : isBlank c = true ↔ kind = .blank ∨ kind = .newline
  newline : c = '\n' ↔ kind = .newline ∧ chars = ['\n']

theorem starts_plain {kind : Kind} {chars : List Char} {c : Char} (plain : isDelimiter c = false)
    (atom : kind = .number ∨ kind = .symbol) : Starts kind chars c := by
  have filled : isBlank c = false := by
    simp only [isDelimiter, Bool.or_eq_false_iff] at plain
    exact plain.1.1.1
  have other : c ≠ '\n' := by
    rintro rfl
    exact absurd filled (by decide +kernel)
  rcases atom with rfl | rfl
  · exact ⟨by simp [plain], by simp [filled], by simp [other]⟩
  · exact ⟨by simp [plain], by simp [filled], by simp [other]⟩

theorem Kind.Admits.starts {kind : Kind} {chars : List Char} (admits : kind.Admits chars) :
    ∃ c cs, chars = c :: cs ∧ Starts kind chars c := by
  cases kind with
  | number =>
    obtain ⟨c, cs, rfl⟩ := List.exists_cons_of_ne_nil (isNumber_present admits)
    exact ⟨c, cs, rfl, starts_plain (isNumber_plain admits c List.mem_cons_self) (.inl rfl)⟩
  | symbol =>
    obtain ⟨c, cs, rfl⟩ := List.exists_cons_of_ne_nil admits.present
    exact ⟨c, cs, rfl, starts_plain (admits.plain c List.mem_cons_self) (.inr rfl)⟩
  | string =>
    obtain ⟨body, _, rfl⟩ := admits
    exact ⟨_, _, rfl, by decide +kernel, by decide +kernel, by simp⟩
  | blank =>
    obtain ⟨present, each⟩ := admits
    obtain ⟨c, cs, rfl⟩ := List.exists_cons_of_ne_nil present
    obtain ⟨blank, other⟩ := each c List.mem_cons_self
    exact ⟨c, cs, rfl, by simp [isDelimiter, blank], by simp [blank], by simp [other]⟩
  | comment =>
    obtain ⟨remark, rfl, _⟩ := admits
    exact ⟨_, _, rfl, by decide +kernel, by decide +kernel, by simp⟩
  | newline =>
    rcases admits with rfl | rfl
    · exact ⟨_, _, rfl, by decide +kernel, by decide +kernel, by simp⟩
    · exact ⟨_, _, rfl, by decide +kernel, by decide +kernel, by simp⟩
  | openList | closeList | openVector | closeVector | quote =>
    subst admits
    exact ⟨_, _, rfl, by decide +kernel, by decide +kernel, by simp⟩
  | foreign label => exact admits.elim

theorem eq_newline_iff (token : Token) (text : String) :
    token = ⟨.newline, text⟩ ↔ token.kind = .newline ∧ token.text.toList = text.toList := by
  rw [String.toList_inj]
  exact ⟨by rintro rfl; exact ⟨rfl, rfl⟩, fun same => by cases token; simp_all⟩

theorem stops_iff_follows {token next : Token} (admits : next.kind.Admits next.text.toList)
    (more : List Char) :
    Stops token.kind token.text.toList (next.text.toList ++ more).head? ↔ Follows token next := by
  obtain ⟨c, cs, text, starts⟩ := admits.starts
  have carriage : token.text.toList = ['\r'] ↔ token.text = "\r" := by
    rw [← String.toList_inj]
    rfl
  have ends : next.kind = .newline → next.text.toList = ['\n'] ∨ next.text.toList = ['\r', '\n'] := by
    intro same
    rw [same] at admits
    exact admits
  have lf : next = ⟨.newline, "\n"⟩ ↔ c = '\n' := by
    rw [eq_newline_iff, starts.newline]
    rfl
  have crlf : next = ⟨.newline, "\r\n"⟩ ↔ next.kind = .newline ∧ c ≠ '\n' := by
    rw [eq_newline_iff, Ne, starts.newline]
    change next.kind = .newline ∧ next.text.toList = ['\r', '\n'] ↔ _
    constructor
    · rintro ⟨newline, ended⟩
      simp [newline, ended]
    · rintro ⟨newline, other⟩
      exact ⟨newline, (ends newline).resolve_left fun single => other ⟨newline, single⟩⟩
  rw [text, List.cons_append, List.head?_cons]
  unfold Stops Follows
  cases token.kind with
  | number | symbol => simpa using starts.delimiter
  | blank =>
    have apart : continuesBlank c = false ↔ next.kind ≠ .blank ∧ next ≠ ⟨.newline, "\r\n"⟩ := by
      have blank := starts.blank
      have newline := starts.newline
      simp only [ne_eq, crlf, continuesBlank]
      grind
    simp [apart, carriage, lf, and_assoc]
  | comment => simp [lf]
  | _ => rfl

/-! ### Whole texts -/

theorem lexes_cons_iff {token : Token} {cs rest : List Char} {tokens : List Token} :
    Lexes cs (token :: tokens) rest ↔ ∃ middle, Lexes cs [token] middle ∧ Lexes middle tokens rest := by
  constructor
  · rintro (_ | ⟨found, others⟩)
    exact ⟨_, .one found, others⟩
  · rintro ⟨middle, first, others⟩
    exact first.append others

theorem lexes_iff {cs rest : List Char} {tokens : List Token} :
    Lexes cs tokens rest ↔ tokens.flatMap (·.text.toList) ++ rest = cs ∧
      (∀ token ∈ tokens, token.kind.Admits token.text.toList) ∧ tokens.IsChain Follows ∧
      ∀ last ∈ tokens.getLast?, Stops last.kind last.text.toList rest.head? := by
  induction tokens generalizing cs with
  | nil =>
    constructor
    · rintro ⟨⟩
      simp
    · rintro ⟨rfl, -⟩
      exact .done rest
  | cons token tokens ih =>
    rw [lexes_cons_iff]
    simp only [lexes_one_iff, ih, List.flatMap_cons, List.append_assoc,
      List.forall_mem_cons, List.isChain_cons]
    cases tokens with
    | nil => simp
    | cons next tokens =>
      have meets : next.kind.Admits next.text.toList →
          (Stops token.kind token.text.toList
            (next.text.toList ++ (tokens.flatMap (·.text.toList) ++ rest)).head? ↔
              Follows token next) :=
        fun admits => stops_iff_follows admits _
      simp only [List.getLast?_cons_cons, List.head?_cons, Option.mem_some_iff, forall_eq',
        List.forall_mem_cons, List.flatMap_cons, List.append_assoc]
      constructor
      · rintro ⟨_, ⟨rfl, admits, stops⟩, rfl, ⟨nextAdmits, each⟩, chain, last⟩
        exact ⟨rfl, ⟨admits, nextAdmits, each⟩, ⟨(meets nextAdmits).mp stops, chain⟩, last⟩
      · rintro ⟨rfl, ⟨admits, nextAdmits, each⟩, ⟨follows, chain⟩, last⟩
        exact ⟨_, ⟨rfl, admits, (meets nextAdmits).mpr follows⟩, rfl, ⟨nextAdmits, each⟩, chain, last⟩

end Token

/-- Segmentation undoes putting texts together, and is undone by it: a source splits into tokens
exactly when it is made of their texts, each of its kind, and no two neighbours run together. -/
theorem tokenize_undoes_join (source : String) (name : Option String) (tokens : List Token) :
    tokenize source name = .ok tokens ↔ String.join (tokens.map Token.text) = source ∧
      (∀ token ∈ tokens, token.kind.Admits token.text.toList) ∧ tokens.IsChain Token.Follows := by
  have joined : String.join (tokens.map Token.text) = source ↔
      tokens.flatMap (·.text.toList) = source.toList := by
    rw [← String.toList_inj, String.toList_join, List.flatMap, List.flatMap, List.map_map]
    rfl
  rw [tokenize_iff, Token.lexes_iff, List.append_nil, joined]
  have ends : ∀ last ∈ tokens.getLast?, Token.Stops last.kind last.text.toList none := by
    intro last _
    unfold Token.Stops
    split <;> simp
  exact and_congr_right fun _ => and_congr_right fun _ => and_iff_left ends

end HostLisp
