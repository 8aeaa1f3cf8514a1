import StoreScheme.Proofs.Language
import StoreScheme.Proofs.Token.Written

/-!
# Reading back

Data are written so that reading them gives the same data again, as long as numbers are not NaN and
symbols have names that are identifiers.

* `Value.Readable`: the values in question
* `Lexes`: the lexemes of a text that has another one behind it
* `EndsList`: the lexemes from some item of a list to its end
* `Value.Readable.lexes`: the lexemes of a written value are a datum that stands for it
* `display_reads_back`: a written value reads back
-/

namespace StoreScheme

inductive Value.Readable : Value → Prop
  | integer (n : Int64) : Readable (.number (.integer n))
  | real {x : Binary64} : x ≠ .nan → Readable (.number (.real x))
  | boolean (b : Bool) : Readable (.boolean b)
  | string (s : String) : Readable (.string s)
  | symbol {name : String} : lex name = [⟨.ok (.identifier name), name, 0⟩] → Readable (.symbol name)
  | null : Readable .null
  | pair {id : Identity} {car cdr : Value} : Readable car → Readable cdr → Readable (.pair id car cdr)

/-! ## Equal data -/

/-- Whatever identities are put into it, the literal is equal to a value. -/
def Literal.Equals (l : Literal) (v : Value) : Prop :=
  ∀ l' : Literal, l'.erase = l → (Value.ofLiteral l').equal v = true

theorem Number.same_self {n : Number} (notNaN : n ≠ .real .nan) : n.same n = true := by
  cases n with
  | integer n => simp [same]
  | real x =>
      cases x with
      | nan => exact absurd rfl notNaN
      | infinity negative => simp [same, Binary64.eq, Binary64.orderKey]
      | finite negative position => simp [same, Binary64.eq, Binary64.orderKey]

namespace Literal

theorem equals_number {n : Number} (notNaN : n ≠ .real .nan) : (Literal.number n).Equals (.number n) := by
  intro l same
  cases l <;> cases same
  exact Number.same_self notNaN

theorem equals_boolean (b : Bool) : (Literal.boolean b).Equals (.boolean b) := by
  intro l same
  cases l <;> cases same
  simp [Value.ofLiteral, Value.equal]

theorem equals_string (s : String) : (Literal.string s).Equals (.string s) := by
  intro l same
  cases l <;> cases same
  simp [Value.ofLiteral, Value.equal]

theorem equals_symbol (name : String) : (Literal.symbol name).Equals (.symbol name) := by
  intro l same
  cases l <;> cases same
  simp [Value.ofLiteral, Value.equal]

theorem equals_null : Literal.null.Equals .null := by
  intro l same
  cases l <;> cases same
  rfl

theorem Equals.pair {a b : Literal} {id : Identity} {car cdr : Value} (first : a.Equals car)
    (rest : b.Equals cdr) : (Literal.pair 0 a b).Equals (.pair id car cdr) := by
  intro l same
  cases l <;> cases same
  simp [Value.ofLiteral, Value.equal, first _ rfl, rest _ rfl]

end Literal

/-! ## Lexemes of a text -/

/-- What the lexemes of a text that are not trivia are, with a given rest behind it. -/
def Lexes (t rest : List Char) (P : List Lexeme → Prop) : Prop :=
  ∀ start, ∃ ls, P (significant ls) ∧
    lexFrom start 0 (t ++ rest) = ls ++ lexFrom (start + Bytes.size t) 0 rest

namespace Lexes

variable {t u rest : List Char} {P Q : List Lexeme → Prop}

theorem imp (lexes : Lexes t rest P) (imp : ∀ ls, P ls → Q ls) : Lexes t rest Q := by
  intro start
  obtain ⟨ls, holds, split⟩ := lexes start
  exact ⟨ls, imp _ holds, split⟩

theorem append (first : Lexes t (u ++ rest) P) (second : Lexes u rest Q) :
    Lexes (t ++ u) rest fun ls => ∃ ms ns, ls = ms ++ ns ∧ P ms ∧ Q ns := by
  intro start
  obtain ⟨ms, holds, split⟩ := first start
  obtain ⟨ns, holds', split'⟩ := second (start + Bytes.size t)
  refine ⟨ms ++ ns, ⟨_, _, significant_append ms ns, holds, holds'⟩, ?_⟩
  rw [List.append_assoc, split, split', Bytes.size_append, Nat.add_assoc, List.append_assoc]

theorem token {r : Rule} {token : Token} (best : Rule.best? (t ++ rest) = some (r, t.length)) (read : r.read t = .ok token)
    (notTrivia : token.isTrivia = false) :
    Lexes t rest fun ls => ∃ l : Lexeme, ls = [l] ∧ l.result = .ok token := by
  intro start
  let l : Lexeme := ⟨r.read t, String.ofList t, start⟩
  have isToken : l.result = .ok token := read
  have significant := significant_singleton ((Lexeme.isTrivia_ok isToken).trans notTrivia)
  exact ⟨[l], ⟨l, significant, isToken⟩, lexFrom_append start best⟩

theorem blank {r : Rule} {n : Nat} (next : Rule.best? (t ++ rest) = some (r, n)) (other : r ≠ .whitespace)
    (lexes : Lexes t rest P) : Lexes (' ' :: t) rest P := by
  have first : Lexes [' '] (t ++ rest) (· = []) := by
    intro start
    exact ⟨[_], rfl, lexFrom_append (t := [' ']) start (Rule.best?_blank next other)⟩
  refine (first.append lexes).imp ?_
  rintro ls ⟨_, ns, rfl, rfl, holds⟩
  exact holds

theorem openParen : Lexes ['('] rest fun ls => ∃ l : Lexeme, ls = [l] ∧ l.result = .ok .openParen :=
  token (Rule.best?_openParen rest) rfl rfl

theorem closeParen : Lexes [')'] rest fun ls => ∃ l : Lexeme, ls = [l] ∧ l.result = .ok .closeParen :=
  token (Rule.best?_closeParen rest) rfl rfl

end Lexes

/-! ## Lists from the inside -/

/-- The lexemes from some item of a list on, up to its closing parenthesis, with the data before and
after the dot. -/
inductive EndsList : List Lexeme → List Datum → Option (List Datum) → Prop
  | close {c : Lexeme} : c.result = .ok .closeParen → EndsList [c] [] none
  | dot {dot c : Lexeme} {ls : List Lexeme} {d : Datum} : dot.result = .ok .dot → Derives ls [d] →
    c.result = .ok .closeParen → EndsList (dot :: (ls ++ [c])) [] (some [d])
  | item {ls ms : List Lexeme} {d : Datum} {items : List Datum} {after : Option (List Datum)} :
    Derives ls [d] → EndsList ms items after → EndsList (ls ++ ms) (d :: items) after

theorem EndsList.split {ls : List Lexeme} {items : List Datum} {after : Option (List Datum)}
    (ends : EndsList ls items after) :
    (∃ inner c, ls = inner ++ [c] ∧ Derives inner items ∧ c.result = .ok .closeParen ∧ after = none) ∨
    ∃ inner dot ms c d, ls = inner ++ dot :: (ms ++ [c]) ∧ Derives inner items ∧ dot.result = .ok .dot ∧
      Derives ms [d] ∧ c.result = .ok .closeParen ∧ after = some [d] := by
  induction ends with
  | close isClose => exact .inl ⟨[], _, rfl, .nil, isClose, rfl⟩
  | dot isDot derives isClose => exact .inr ⟨[], _, _, _, _, rfl, .nil, isDot, derives, isClose, rfl⟩
  | item derives _ ih =>
      rcases ih with ⟨inner, c, rfl, rest, isClose, same⟩ |
        ⟨inner, dot, ms, c, d, rfl, rest, isDot, tail, isClose, same⟩
      · exact .inl ⟨_, c, by rw [← List.append_assoc], derives.append rest, isClose, same⟩
      · exact .inr ⟨_, dot, ms, c, d, by rw [← List.append_assoc], derives.append rest, isDot, tail,
          isClose, same⟩

theorem EndsList.derives {o : Lexeme} {ls : List Lexeme} {items : List Datum} {after : Option (List Datum)}
    (isOpen : o.result = .ok .openParen) (ends : EndsList ls items after) (nonempty : items ≠ []) :
    ∃ span, Derives (o :: ls) [.list span items after] := by
  rcases ends.split with ⟨inner, c, rfl, derives, isClose, rfl⟩ |
    ⟨inner, dot, ms, c, d, rfl, derives, isDot, tail, isClose, rfl⟩
  · exact ⟨_, .list isOpen isClose derives .nil⟩
  · exact ⟨_, .dotted isOpen isDot isClose nonempty derives tail .nil⟩

/-! ## Written values -/

namespace Value

variable {v : Value}

/-- A value that is written as one token. -/
structure IsAtom (v : Value) (t : List Char) (token : Token) (a : Atom) : Prop where
  alone : v.displayChars false = t
  last : v.displayChars true = [' ', '.', ' '] ++ t ++ [')']
  spelled : token.Spelled t
  atom : token.atom? = some a
  equals : ∀ span, ((Datum.atom span a).literal (.uniform false)).Equals v

theorem Readable.cases (readable : v.Readable) :
    (∃ t token a, v.IsAtom t token a) ∨ v = .null ∨
      ∃ id car cdr, v = .pair id car cdr ∧ car.Readable ∧ cdr.Readable := by
  cases readable with
  | integer n => exact .inl ⟨_, _, _, rfl, rfl, Token.spelled_integer n, rfl, fun _ => Literal.equals_number (by simp)⟩
  | real notNaN =>
      exact .inl ⟨_, _, _, rfl, rfl, Token.spelled_real notNaN, rfl, fun _ => Literal.equals_number (by simpa)⟩
  | boolean b => exact .inl ⟨_, _, _, rfl, rfl, Token.spelled_boolean b, rfl, fun _ => Literal.equals_boolean b⟩
  | string s => exact .inl ⟨_, _, _, rfl, rfl, Token.spelled_string s, rfl, fun _ => Literal.equals_string s⟩
  | symbol alone => exact .inl ⟨_, _, _, rfl, rfl, Token.spelled_of_lex alone, rfl, fun _ => Literal.equals_symbol _⟩
  | null => exact .inr (.inl rfl)
  | pair car cdr => exact .inr (.inr ⟨_, _, _, rfl, car, cdr⟩)

/-- A value in a list goes on with a blank or closes the list. -/
theorem Readable.ends (readable : v.Readable) (rest : List Char) :
    Rule.Ends (v.displayChars true ++ rest) := by
  rcases readable.cases with ⟨t, token, a, isAtom⟩ | rfl | ⟨id, car, cdr, rfl, _⟩
  · rw [isAtom.last]
    simp [Rule.Ends, Rule.delimiters]
  · simp [Rule.Ends, Rule.delimiters, displayChars]
  · simp [Rule.Ends, Rule.delimiters, displayChars]

theorem Readable.starts (readable : v.Readable) {rest : List Char} (ends : Rule.Ends rest) :
    ∃ r n, r ≠ Rule.whitespace ∧ Rule.best? (v.displayChars false ++ rest) = some (r, n) := by
  rcases readable.cases with ⟨t, token, a, isAtom⟩ | rfl | ⟨id, car, cdr, rfl, _⟩
  · obtain ⟨r, other, _, best⟩ := isAtom.spelled
    rw [isAtom.alone]
    exact ⟨r, _, other, best rest ends⟩
  · exact ⟨.openParen, 1, by simp, Rule.best?_openParen _⟩
  · exact ⟨.openParen, 1, by simp, Rule.best?_openParen _⟩

theorem IsAtom.lexes {t rest : List Char} {token : Token} {a : Atom} (isAtom : v.IsAtom t token a)
    (ends : Rule.Ends rest) :
    Lexes t rest fun ls => ∃ d, Derives ls [d] ∧ (d.literal (.uniform false)).Equals v := by
  obtain ⟨r, _, read, best⟩ := isAtom.spelled
  have notTrivia : token.isTrivia = false := by
    have atom := isAtom.atom
    cases token <;> first | rfl | cases atom
  refine (Lexes.token (best rest ends) read notTrivia).imp ?_
  rintro ls ⟨l, rfl, result⟩
  exact ⟨_, .atom (Lexeme.atom?_of_result result isAtom.atom) .nil, isAtom.equals _⟩

/-- The lexemes of a value by itself are a datum that stands for it. -/
def LexesAlone (v : Value) : Prop :=
  ∀ rest, Rule.Ends rest → Lexes (v.displayChars false) rest fun ls =>
    ∃ d, Derives ls [d] ∧ (d.literal (.uniform false)).Equals v

/-- The lexemes of a value behind the items of a list end the list, which stands for it. -/
def LexesLast (v : Value) : Prop :=
  ∀ rest, Lexes (v.displayChars true) rest fun ls => ∃ items after, EndsList ls items after ∧
    ∀ span, ((Datum.list span items after).literal (.uniform false)).Equals v

theorem IsAtom.lexesLast {t : List Char} {token : Token} {a : Atom} (isAtom : v.IsAtom t token a) :
    v.LexesLast := by
  intro rest
  obtain ⟨r, other, _, best⟩ := isAtom.spelled
  have close : Rule.Ends ([')'] ++ rest) := by simp [Rule.Ends, Rule.delimiters]
  have datum := ((isAtom.lexes close).append Lexes.closeParen).blank
    (by rw [List.append_assoc]; exact best _ close) other
  have isDot : Rule.best? (['.'] ++ (' ' :: (t ++ [')']) ++ rest)) = some (.dot, ['.'].length) :=
    Rule.best?_ends (by decide +kernel) (.inl (by decide)) (by simp [Rule.Ends, Rule.delimiters])
  have dotted := ((Lexes.token isDot rfl rfl).append datum).blank (by rw [List.append_assoc]; exact isDot)
    (by simp)
  have text : v.displayChars true = ' ' :: (['.'] ++ ' ' :: (t ++ [')'])) := by simp [isAtom.last]
  rw [text]
  refine dotted.imp ?_
  rintro ls ⟨_, _, rfl, ⟨dot, rfl, isDot⟩, ms, _, rfl, ⟨d, derives, equals⟩, c, rfl, isClose⟩
  exact ⟨[], some [d], .dot isDot derives isClose, fun _ => equals⟩

theorem lexes_null : LexesAlone .null ∧ LexesLast .null := by
  constructor
  · intro rest _
    refine (Lexes.openParen.append Lexes.closeParen).imp ?_
    rintro ls ⟨_, _, rfl, ⟨o, rfl, isOpen⟩, c, rfl, isClose⟩
    exact ⟨_, .list isOpen isClose .nil .nil, Literal.equals_null⟩
  · intro rest
    refine Lexes.closeParen.imp ?_
    rintro ls ⟨c, rfl, isClose⟩
    exact ⟨[], none, .close isClose, fun _ => Literal.equals_null⟩

theorem lexes_pair {id : Identity} {car cdr : Value} (readable : car.Readable) (readable' : cdr.Readable)
    (first : car.LexesAlone) (last : cdr.LexesLast) :
    LexesAlone (.pair id car cdr) ∧ LexesLast (.pair id car cdr) := by
  have items : ∀ rest, Lexes (car.displayChars false ++ cdr.displayChars true) rest fun ls =>
      ∃ items after, items ≠ [] ∧ EndsList ls items after ∧
        ∀ span, ((Datum.list span items after).literal (.uniform false)).Equals (.pair id car cdr) := by
    intro rest
    refine ((first _ (readable'.ends rest)).append (last rest)).imp ?_
    rintro ls ⟨ms, ns, rfl, ⟨d, derives, equals⟩, items, after, ends, equals'⟩
    refine ⟨d :: items, after, by simp, .item derives ends, fun span => ?_⟩
    cases after with
    | none => exact equals.pair (equals' span)
    | some tail => exact equals.pair (equals' span)
  constructor
  · intro rest _
    refine (Lexes.openParen.append (items rest)).imp ?_
    rintro ls ⟨_, ns, rfl, ⟨o, rfl, isOpen⟩, items, after, nonempty, ends, equals⟩
    obtain ⟨span, derives⟩ := ends.derives isOpen nonempty
    exact ⟨_, derives, equals span⟩
  · intro rest
    obtain ⟨r, n, other, best⟩ := readable.starts (readable'.ends rest)
    have lexes := (items rest).blank (by rw [List.append_assoc]; exact best) other
    refine lexes.imp ?_
    rintro ls ⟨items, after, _, ends, equals⟩
    exact ⟨items, after, ends, equals⟩

theorem Readable.lexes (readable : v.Readable) : v.LexesAlone ∧ v.LexesLast := by
  induction v with
  | pair id car cdr ihCar ihCdr =>
      cases readable with
      | pair readable readable' =>
          exact lexes_pair readable readable' (ihCar readable).1 (ihCdr readable').2
  | null => exact lexes_null
  | _ =>
      rcases readable.cases with ⟨t, token, a, isAtom⟩ | isNull | ⟨_, _, _, isPair, _⟩
      · refine ⟨fun rest ends => ?_, isAtom.lexesLast⟩
        rw [isAtom.alone]
        exact isAtom.lexes ends
      · cases isNull
      · cases isPair

end Value

/-- The text of a readable value parses without errors and is one datum, and what this stands for where
it is quoted without folding case is equal to the value. -/
theorem display_reads_back {v : Value} (readable : v.Readable) :
    (parse v.display).isOk = true ∧ ∃ d, (parse v.display).tree.data = [d] ∧
      ∀ fresh, ∃ l next, (Literal.ofDatum (.uniform false) d).run fresh = .ok (l, next) ∧
        (Value.ofLiteral l).equal v = true := by
  obtain ⟨ls, ⟨d, derives, equals⟩, split⟩ := readable.lexes.1 [] (by simp [Rule.Ends]) 0
  have whole : lex v.display = ls := by
    rw [List.append_nil] at split
    rw [lex, Value.display, String.toList_ofList, split]
    simp [lexFrom]
  rw [← whole] at derives
  obtain ⟨ok, data⟩ := derives.parse
  refine ⟨ok, d, data, fun fresh => ?_⟩
  obtain ⟨l, next, run⟩ := Literal.ofDatum_succeeds (.uniform false) d (derives.whole d (by simp)) fresh
  exact ⟨l, next, run, equals l (Literal.ofDatum_literal (.uniform false) d fresh l next run).2⟩

theorem display_reads_back_dotted :
    let v : Value := .pair 0 (.symbol "quote") (.pair 1 (.number (.integer Int64.minValue)) (.string "\x07"))
    v.display = "(quote -9223372036854775808 . \"\\x7;\")" ∧
      ∃ d, (parse v.display).tree.data = [d] ∧
        ∃ l next, (Literal.ofDatum (.uniform false) d).run 7 = .ok (l, next) ∧
          (Value.ofLiteral l).equal v = true := by
  intro v
  have readable : v.Readable := .pair (.symbol rfl) (.pair (.integer _) (.string _))
  obtain ⟨_, d, data, reads⟩ := display_reads_back readable
  exact ⟨rfl, d, data, reads 7⟩

end StoreScheme
