import Mathlib.Data.Bool.AllAny
import StoreScheme.Proofs.Text.Regex
import StoreScheme.Proofs.Token.Tiling

/-!
# The choice of a rule

The rule used at the head of a text depends only on the lengths of the matches, and these depend on
what follows a piece of text only if some rule matches across its end.

* `Rule.best?_eq_some`: the longest match, the earliest rule of those
* `Rule.best?_whole`: a rule for all of a text
* `Rule.Stops`, `Rule.best?_append`: a text after which no match can go on
* `Rule.isPlain`, `Rule.stops_plain`: tokens that end before a delimiter
* `Rule.opener?`, `Rule.stops_closed`: tokens that end with their own last character
-/

namespace StoreScheme

namespace Rule

variable {r s : Rule} {c d : Char} {n : Nat} {t u w rest input : List Char}

/-! ## The best match -/

theorem mem_all (r : Rule) : r ∈ all := by
  cases r <;> decide

/-- The rules that are listed before one. -/
def earlier (r : Rule) : List Rule := all.takeWhile (· ≠ r)

theorem all_eq (r : Rule) : ∃ later, all = r.earlier ++ r :: later := by
  refine ⟨(all.dropWhile (· ≠ r)).tail, ?_⟩
  cases r <;> rfl

theorem not_mem_earlier (r : Rule) : r ∉ r.earlier := by
  cases r <;> decide

theorem foldl_prefer_lt {rs : List Rule} {best : Option (Rule × Nat)}
    (shorter : ∀ s ∈ rs, ∀ m, s.match? input = some m → m < n) (start : ∀ p ∈ best, p.2 < n) :
    ∀ p ∈ rs.foldl (prefer input) best, p.2 < n := by
  induction rs generalizing best with
  | nil => exact start
  | cons s rs ih =>
      obtain ⟨first, others⟩ := List.forall_mem_cons.1 shorter
      refine ih others ?_
      rintro ⟨r, m⟩ chosen
      rcases prefer_eq_some chosen with before | ⟨rfl, found⟩
      · exact start _ before
      · exact first m found

theorem foldl_prefer_eq {rs : List Rule} (longest : ∀ s ∈ rs, ∀ m, s.match? input = some m → m ≤ n) :
    rs.foldl (prefer input) (some (r, n)) = some (r, n) := by
  induction rs with
  | nil => rfl
  | cons s rs ih =>
      obtain ⟨first, others⟩ := List.forall_mem_cons.1 longest
      have kept : prefer input (some (r, n)) s = some (r, n) := by
        unfold prefer
        split
        · rename_i m _ _ found before
          cases before
          rw [if_neg (Nat.not_lt.2 (first m found))]
        · cases ‹some (r, n) = none›
        · rfl
      rw [List.foldl_cons, kept, ih others]

theorem best?_eq_some (found : r.match? input = some n)
    (shorter : ∀ s ∈ r.earlier, ∀ m, s.match? input = some m → m < n)
    (longest : ∀ s : Rule, ∀ m, s.match? input = some m → m ≤ n) : best? input = some (r, n) := by
  obtain ⟨later, split⟩ := all_eq r
  have before : ∀ p ∈ r.earlier.foldl (prefer input) none, p.2 < n := foldl_prefer_lt shorter (by simp)
  rw [best?, split, List.foldl_append, List.foldl_cons]
  generalize r.earlier.foldl (prefer input) none = best at before
  have chosen : prefer input best r = some (r, n) := by
    cases best with
    | none => simp [prefer, found]
    | some p => simp [prefer, found, before p rfl]
  rw [chosen, foldl_prefer_eq fun s _ => longest s]

theorem best?_congr (same : ∀ s : Rule, s.match? t = s.match? u) : best? t = best? u := by
  have preferred : prefer t = prefer u := by
    funext best s
    simp only [prefer, same s]
  rw [best?, best?, preferred]

theorem longest_of_match? (found : r.match? input = some n) : r.pattern.Longest input n :=
  Regex.longest?_eq_some_iff.1 (Option.filter_eq_some_iff.1 found).1

theorem longest_of_best? (best : best? input = some (r, n)) : r.pattern.Longest input n :=
  longest_of_match? (match?_of_best? best)

theorem mayPrecede_nil (r : Rule) : r.mayPrecede [] = true := by
  cases r <;> rfl

theorem exists_cons_of_matches (matched : r.pattern.Matches t) : ∃ c u, t = c :: u := by
  cases t with
  | nil =>
      have nullable := Regex.nullable_iff.2 matched
      rw [pattern_nullable] at nullable
      cases nullable
  | cons c u => exact ⟨c, u, rfl⟩

theorem best?_nil : best? [] = none := by decide +kernel

theorem starts_of_best? (best : best? (c :: input) = some (r, n)) : r.pattern.starts c = true := by
  have matched := (longest_of_best? best).matched
  cases n with
  | zero => exact absurd (match?_pos (match?_of_best? best)) (Nat.lt_irrefl 0)
  | succ n => exact Regex.starts_of_matches matched

theorem match?_whole (matched : r.pattern.Matches t) : r.match? t = some t.length := by
  have longest : r.pattern.Longest t t.length := by
    refine ⟨Nat.le_refl _, by rwa [List.take_length], ?_⟩
    intro u below _
    exact below.length_le
  rw [match?, Regex.longest?_eq_some_iff.2 longest]
  simp [mayPrecede_nil]

theorem best?_whole (matched : r.pattern.Matches t)
    (others : ∀ s ∈ r.earlier, ¬ s.pattern.Matches t) : best? t = some (r, t.length) := by
  refine best?_eq_some (match?_whole matched) ?_ ?_
  · intro s member m found
    have longest := longest_of_match? found
    refine Nat.lt_of_le_of_ne longest.le ?_
    rintro rfl
    have whole := longest.matched
    rw [List.take_length] at whole
    exact others s member whole
  · intro s m found
    exact (longest_of_match? found).le

/-! ## Texts that end before a character -/

/-- No text of a rule goes on with the character after a text. -/
def Stops (t : List Char) (c : Char) : Prop := ∀ s : Rule, ∀ w, s.pattern.Matches w → ¬ t ++ [c] <+: w

theorem match?_append (stops : Stops t c)
    (mayPrecede : s.pattern.Matches t → s.mayPrecede (c :: rest) = true) :
    s.match? (t ++ c :: rest) = s.match? t := by
  rw [match?, match?, Regex.longest?_append (stops s)]
  cases found : s.pattern.longest? t with
  | none => rfl
  | some n =>
      have longest := Regex.longest?_eq_some_iff.1 found
      have same : s.mayPrecede ((t ++ c :: rest).drop n) = s.mayPrecede (t.drop n) := by
        rcases Nat.lt_or_eq_of_le longest.le with inside | rfl
        · rw [List.drop_append_of_le_length longest.le]
          obtain ⟨d, more, split⟩ := List.exists_cons_of_length_pos
            (l := t.drop n) (by rw [List.length_drop]; omega)
          rw [split]
          cases s <;> rfl
        · have whole := longest.matched
          rw [List.take_length] at whole
          rw [List.drop_left, List.drop_length, mayPrecede whole, mayPrecede_nil]
      simp [Option.filter_some, same]

theorem best?_append (stops : Stops t c)
    (mayPrecede : ∀ s : Rule, s.pattern.Matches t → s.mayPrecede (c :: rest) = true) :
    best? (t ++ c :: rest) = best? t :=
  best?_congr fun s => match?_append stops (mayPrecede s)

/-! ## Delimiters -/

def delimiters : List Char := [' ', '\t', '\r', '\n', ';', '"', '|', '(', ')', '\'']

/-- The texts of the rule have no delimiter in them. -/
def isPlain (r : Rule) : Bool := delimiters.all fun c => r.pattern.avoids c

/-- A rule that is not plain has texts that start with a delimiter, and no others. -/
theorem mem_delimiters_of_starts (notPlain : s.isPlain = false) (starts : s.pattern.starts c = true) :
    c ∈ delimiters := by
  have single : ∀ k ∈ s.pattern.firsts,
      k.complemented = false ∧ ∀ p ∈ k.ranges, p.1 = p.2 ∧ p.1 ∈ delimiters := by
    revert notPlain
    cases s <;> decide +kernel
  obtain ⟨k, member, contains⟩ := List.any_eq_true.1 starts
  obtain ⟨notComplemented, ranges⟩ := single k member
  rw [CharClass.contains, notComplemented, Bool.bne_false, List.any_eq_true] at contains
  obtain ⟨⟨first, last⟩, range, within⟩ := contains
  obtain ⟨single, delimiter⟩ := ranges _ range
  dsimp only at single delimiter within
  subst single
  have same : c = first := by
    simp only [Bool.and_eq_true, decide_eq_true_eq] at within
    exact Char.le_antisymm within.2 within.1
  rwa [same]

theorem stops_plain (plain : r.isPlain = true) (matched : r.pattern.Matches t)
    (delimiter : c ∈ delimiters) : Stops t c := by
  intro s w matched' ⟨more, whole⟩
  cases plain' : s.isPlain with
  | true =>
      refine Regex.not_mem_of_avoids (List.all_eq_true.1 plain' c delimiter) matched' ?_
      simp [← whole]
  | false =>
      obtain ⟨d, t, rfl⟩ := exists_cons_of_matches matched
      rw [← whole] at matched'
      have delimiter' := mem_delimiters_of_starts plain' (Regex.starts_of_matches matched')
      have avoids := List.all_eq_true.1 plain d delimiter'
      exact Regex.not_mem_of_avoids avoids matched List.mem_cons_self

theorem mayPrecede_delimiter (delimiter : c ∈ delimiters) : s.mayPrecede (c :: rest) = true := by
  have noLead : ∀ c ∈ delimiters, directivePartLead.contains c = false :=
    List.all_iff_forall_prop.1 (by decide +kernel)
  cases s <;> simp [mayPrecede, noLead c delimiter]

/-- A text of a plain rule is lexed in the same way alone and before a delimiter. -/
theorem best?_plain (plain : r.isPlain = true) (matched : r.pattern.Matches t)
    (delimiter : c ∈ delimiters) : best? (t ++ c :: rest) = best? t :=
  best?_append (stops_plain plain matched delimiter) fun _ _ => mayPrecede_delimiter delimiter

/-! ## Tokens that close themselves -/

/-- The first character of the tokens that end with their own last character. -/
def opener? : Rule → Option Char
  | openParen => some '('
  | closeParen => some ')'
  | quote => some '\''
  | barIdentifier => some '|'
  | string => some '"'
  | _ => none

theorem starts_singleton {d : Char} {p : Regex} :
    (Regex.seq (.text (String.singleton d)) p).starts c = true ↔ c = d := by
  simp [Regex.starts, Regex.firsts, Regex.text, Regex.nullable]

theorem starts_opener (opens : r.opener? = some d) (starts : r.pattern.starts c = true) : c = d := by
  cases r with
  | openParen | closeParen | quote | barIdentifier | string =>
      cases opens
      simpa [pattern, Regex.starts, Regex.firsts, Regex.text, Regex.nullable, Regex.cat] using starts
  | _ => cases opens

theorem eq_of_starts_opener (opens : r.opener? = some d) (starts : s.pattern.starts d = true) :
    s = r := by
  revert starts
  cases r with
  | openParen | closeParen | quote | barIdentifier | string =>
      cases opens
      cases s <;> decide
  | _ => cases opens

theorem prefixFree_stringItem : stringItem.PrefixFree := by
  refine .alt .chars ((Regex.PrefixFree.text _).seq .chars) ?_ rfl rfl
  intro c starts
  rw [starts_singleton (d := '\\') |>.1 starts]
  decide

theorem prefixFree_of_opener (opens : r.opener? = some d) : r.pattern.PrefixFree := by
  cases r with
  | openParen => exact .text _
  | closeParen => exact .text _
  | quote => exact .text _
  | barIdentifier =>
      refine (Regex.PrefixFree.text _).seq (.star .chars ((Regex.PrefixFree.text _).seq .epsilon) ?_ rfl)
      intro c starts
      rw [starts_singleton (d := '|') |>.1 starts]
      decide
  | string =>
      refine (Regex.PrefixFree.text _).seq
        (.star prefixFree_stringItem ((Regex.PrefixFree.text _).seq .epsilon) ?_ rfl)
      intro c starts
      rw [starts_singleton (d := '"') |>.1 starts]
      decide
  | _ => cases opens

theorem eq_of_matches_closed (opens : r.opener? = some d) (matched : r.pattern.Matches t)
    (matched' : s.pattern.Matches (t ++ u)) : s = r := by
  obtain ⟨e, t, rfl⟩ := exists_cons_of_matches matched
  have first := starts_opener opens (Regex.starts_of_matches matched)
  rw [first] at matched'
  exact eq_of_starts_opener opens (Regex.starts_of_matches matched')

/-- Nothing can follow inside of a token that is closed. -/
theorem stops_closed (opens : r.opener? = some d) (matched : r.pattern.Matches t) : Stops t c := by
  intro s w matched' ⟨more, whole⟩
  rw [← whole, List.append_assoc] at matched'
  have same := eq_of_matches_closed opens matched matched'
  subst same
  have all := prefixFree_of_opener opens _ _ matched matched' (List.prefix_append t _)
  simp at all

theorem best?_closed (opens : r.opener? = some d) (matched : r.pattern.Matches t) (rest : List Char) :
    best? (t ++ rest) = some (r, t.length) := by
  have only : ∀ s : Rule, s.pattern.Matches t → s = r := by
    intro s matched'
    rw [← List.append_nil t] at matched'
    exact eq_of_matches_closed opens matched matched'
  have alone : best? t = some (r, t.length) := by
    refine best?_whole matched ?_
    intro s earlier matched'
    rw [only s matched'] at earlier
    exact not_mem_earlier r earlier
  cases rest with
  | nil => rw [List.append_nil, alone]
  | cons c rest =>
      rw [best?_append (stops_closed opens matched), alone]
      intro s matched'
      rw [only s matched']
      cases r with
      | foldCase | noFoldCase => cases opens
      | _ => rfl

theorem best?_openParen (rest : List Char) : best? ('(' :: rest) = some (openParen, 1) :=
  best?_closed (r := openParen) (t := ['(']) rfl (Regex.matches_text "(") rest

theorem best?_closeParen (rest : List Char) : best? (')' :: rest) = some (closeParen, 1) :=
  best?_closed (r := closeParen) (t := [')']) rfl (Regex.matches_text ")") rest

/-! ## What may follow a token -/

/-- A text is at its end, or goes on with a delimiter. -/
def Ends (rest : List Char) : Prop := ∀ c ∈ rest.head?, c ∈ delimiters

/-- A token that can be told from what follows it at a delimiter. -/
theorem best?_ends (best : best? t = some (r, t.length))
    (kind : r.isPlain = true ∨ ∃ d, r.opener? = some d) (ends : Ends rest) :
    best? (t ++ rest) = some (r, t.length) := by
  have matched := (longest_of_best? best).matched
  rw [List.take_length] at matched
  rcases kind with plain | ⟨d, opens⟩
  · cases rest with
    | nil => rw [List.append_nil, best]
    | cons c rest => rw [best?_plain plain matched (ends c rfl), best]
  · exact best?_closed opens matched rest

theorem best?_blank (next : best? rest = some (r, n)) (other : r ≠ .whitespace) :
    best? (' ' :: rest) = some (.whitespace, 1) := by
  have only : ∀ s : Rule, ∀ c ∈ " \t".toList, s.pattern.starts c = true → s = .whitespace := by
    intro s
    cases s <;> exact List.all_iff_forall_prop.1 (by decide)
  cases rest with
  | nil =>
      rw [best?_nil] at next
      cases next
  | cons c rest =>
      have notBlank : c ∉ " \t".toList := fun blank => other (only r c blank (starts_of_best? next))
      have avoids : whitespace.pattern.avoids c = true := by
        simpa [pattern, Regex.plus, Regex.avoids, Bool.eq_false_iff] using notBlank
      have stops : Stops [' '] c := by
        rintro s w matched ⟨more, whole⟩
        have same := only s ' ' (by simp) (Regex.starts_of_matches (whole ▸ matched))
        subst same
        exact Regex.not_mem_of_avoids avoids matched (by simp [← whole])
      have alone : best? [' '] = some (.whitespace, 1) := by decide +kernel
      rw [← List.singleton_append, best?_append stops, alone]
      intro s matched
      rw [only s ' ' (by simp) (Regex.starts_of_matches matched)]
      rfl

end Rule

/-! ## The lexeme at the head of a text -/

theorem lexFrom_cons {c : Char} {cs : List Char} {result : Except LexError Token} {n : Nat} (start : Nat)
    (next : nextLexeme (c :: cs) = (result, n)) :
    lexFrom start 0 (c :: cs) = ⟨result, String.ofList ((c :: cs).take n), start⟩ ::
      lexFrom (start + Bytes.size ((c :: cs).take n)) 0 ((c :: cs).drop n) := by
  have positive := nextLexeme_pos c cs
  rw [next] at positive
  obtain ⟨k, rfl⟩ := Nat.exists_eq_succ_of_ne_zero (Nat.ne_of_gt positive)
  rw [lexFrom]
  simp only [next]
  rw [lexFrom_skip]
  rfl

theorem lexFrom_append {r : Rule} {t rest : List Char} (start : Nat)
    (best : Rule.best? (t ++ rest) = some (r, t.length)) :
    lexFrom start 0 (t ++ rest) =
      ⟨r.read t, String.ofList t, start⟩ :: lexFrom (start + Bytes.size t) 0 rest := by
  have positive := Rule.match?_pos (Rule.match?_of_best? best)
  cases t with
  | nil => cases positive
  | cons c t =>
      have next : nextLexeme (c :: (t ++ rest)) = (r.read (c :: t), t.length + 1) := by
        rw [← List.cons_append, nextLexeme, best]
        simp
      rw [List.cons_append, lexFrom_cons start next]
      simp

/-- A text whose lexemes are tokens starts with one. -/
theorem exists_best?_of_ok {start : Nat} {c : Char} {cs : List Char}
    (ok : ∀ l ∈ lexFrom start 0 (c :: cs), ∃ token, l.result = .ok token) :
    ∃ r t rest, c :: cs = t ++ rest ∧ Rule.best? (t ++ rest) = some (r, t.length) := by
  cases best : Rule.best? (c :: cs) with
  | none =>
      have next : nextLexeme (c :: cs) = (.error .invalid, unmatchedLength (c :: cs)) := by
        rw [nextLexeme, best]
      rw [lexFrom_cons start next] at ok
      obtain ⟨_, impossible⟩ := ok _ List.mem_cons_self
      cases impossible
  | some found =>
      obtain ⟨r, n⟩ := found
      refine ⟨r, (c :: cs).take n, (c :: cs).drop n, (List.take_append_drop n _).symm, ?_⟩
      rw [List.take_append_drop, List.length_take_of_le (Rule.longest_of_best? best).le, best]

end StoreScheme
