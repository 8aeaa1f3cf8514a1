import StoreScheme.Datum.FoldCase
import StoreScheme.Proofs.Token.Choice
import StoreScheme.Proofs.Tree.Steps

/-!
# Texts on both sides of a line end

No token goes on behind a line end that is put after a text without lexical errors, except that a
carriage return at the end of the text takes the line end to itself.  So the lexemes of the two
texts are found again when they are joined, those of the second one further on.

* `Span.shift`, `Lexeme.shift`: further on by some bytes
* `lexFrom_shift`: lexing further on
* `Rule.best?_newline`: a token before a line end
* `lex_newline`: the lexemes of the two texts
-/

namespace StoreScheme

def Span.shift (k : Nat) (s : Span) : Span := ⟨s.start + k, s.stop + k⟩

def Lexeme.shift (k : Nat) (l : Lexeme) : Lexeme := { l with start := l.start + k }

theorem Lexeme.span_shift (k : Nat) (l : Lexeme) : (l.shift k).span = l.span.shift k := by
  simp only [span, stop, shift, Span.shift]
  congr 1
  omega

theorem lexFrom_shift (k start : Nat) (cs : List Char) :
    lexFrom (start + k) 0 cs = (lexFrom start 0 cs).map (Lexeme.shift k) := by
  induction size : cs.length using Nat.strongRecOn generalizing start cs with
  | ind size ih =>
      subst size
      cases cs with
      | nil => rfl
      | cons c cs =>
          have positive := nextLexeme_pos c cs
          generalize next : nextLexeme (c :: cs) = result at positive
          obtain ⟨result, n⟩ := result
          have shorter : ((c :: cs).drop n).length < (c :: cs).length := by
            rw [List.length_drop, List.length_cons]
            omega
          rw [lexFrom_cons _ next, lexFrom_cons _ next, List.map_cons, Nat.add_right_comm start k,
            ih _ shorter _ _ rfl]
          rfl

/-! ## Line ends -/

namespace Rule

variable {r s : Rule} {n : Nat} {cs t : List Char}

theorem eq_lineEnding_of_starts {c : Char} (lineEnd : c ∈ "\r\n".toList)
    (starts : s.pattern.starts c = true) : s = .lineEnding := by
  have only : ∀ c ∈ "\r\n".toList, s.pattern.starts c = true → s = .lineEnding := by
    cases s <;> exact List.all_iff_forall_prop.1 (by decide)
  exact only c lineEnd starts

theorem matches_lineEnding : lineEnding.pattern.Matches t ↔ t = ['\n'] ∨ t = ['\r', '\n'] ∨ t = ['\r'] := by
  simp [pattern, Regex.matches_text_iff]

/-- A line end by itself, or behind a carriage return. -/
theorem best?_lineEnd (lineEnd : t = ['\n'] ∨ t = ['\r', '\n']) (rest : List Char) :
    best? (t ++ rest) = some (.lineEnding, t.length) := by
  have only : ∀ s : Rule, ∀ u, s.pattern.Matches (t ++ u) → s = .lineEnding := by
    intro s u matched
    rcases lineEnd with rfl | rfl
    · exact eq_lineEnding_of_starts (by decide) (Regex.starts_of_matches matched)
    · exact eq_lineEnding_of_starts (by decide) (Regex.starts_of_matches matched)
  have stops : ∀ c, Stops t c := by
    intro c s w matched ⟨more, whole⟩
    rw [← whole, List.append_assoc] at matched
    have same := only s _ matched
    subst same
    rcases lineEnd with rfl | rfl
    · simp [matches_lineEnding] at matched
    · simp [matches_lineEnding] at matched
  have alone : best? t = some (.lineEnding, t.length) := by
    rcases lineEnd with rfl | rfl <;> decide +kernel
  cases rest with
  | nil => rw [List.append_nil, alone]
  | cons c rest =>
      rw [best?_append (stops c), alone]
      intro s matched
      rw [only s [] (by simpa using matched)]
      rfl

theorem stops_newline (best : best? cs = some (r, n)) (notReturn : cs ≠ ['\r']) : Stops cs '\n' := by
  intro s w matched ⟨more, whole⟩
  have kinds : s.pattern.avoids '\n' = true ∨ s = .lineEnding ∨ ∃ d, s.opener? = some d := by
    rw [← Option.isSome_iff_exists]
    clear matched
    cases s <;> decide
  cases cs with
  | nil =>
      rw [best?_nil] at best
      cases best
  | cons c cs =>
      rcases kinds with avoids | rfl | ⟨d, opens⟩
      · exact Regex.not_mem_of_avoids avoids matched (by simp [← whole])
      · rw [matches_lineEnding, ← whole] at matched
        simp [List.append_eq_cons_iff] at matched notReturn
        grind
      · -- The token in front is of the same rule, but no token of it goes on into another one.
        have starts : s.pattern.starts c = true := Regex.starts_of_matches (whole ▸ matched)
        have first := starts_opener opens starts
        subst first
        have same := eq_of_starts_opener opens (starts_of_best? best)
        subst same
        have longest := longest_of_best? best
        have below : (c :: cs).take n <+: w :=
          (List.take_prefix n _).trans ⟨'\n' :: more, by simpa using whole⟩
        have all := congrArg List.length (prefixFree_of_opener opens _ _ longest.matched matched below)
        rw [← whole] at all
        simp at all
        omega

/-- Before a line end every token is what it is at the end of the text. -/
theorem best?_newline (best : best? cs = some (r, n)) (notReturn : cs ≠ ['\r']) (rest : List Char) :
    best? (cs ++ '\n' :: rest) = some (r, n) := by
  rw [best?_append (stops_newline best notReturn), best]
  intro s _
  exact mayPrecede_delimiter (by decide)

end Rule

/-! ## Joined texts -/

/-- The same lexemes up to blanks, comments and line ends. -/
structure SameMeaning (ls ms : List Lexeme) : Prop where
  significant : significant ls = significant ms
  switches : ls.filterMap FoldCase.switch? = ms.filterMap FoldCase.switch?

theorem SameMeaning.cons {ls ms : List Lexeme} (l : Lexeme) (same : SameMeaning ls ms) :
    SameMeaning (l :: ls) (l :: ms) := by
  constructor
  · rw [← List.singleton_append, ← List.singleton_append (l := ms), significant_append,
      significant_append, same.significant]
  · simp only [List.filterMap_cons, same.switches]

theorem lexFrom_newline (start : Nat) (cs rest : List Char)
    (ok : ∀ l ∈ lexFrom start 0 cs, ∃ token, l.result = .ok token) :
    ∃ ls, lexFrom start 0 (cs ++ '\n' :: rest) = ls ++ lexFrom (start + Bytes.size cs + 1) 0 rest ∧
      SameMeaning ls (lexFrom start 0 cs) ∧
      ls.getLast?.map Lexeme.stop = some (start + Bytes.size cs + 1) := by
  induction size : cs.length using Nat.strongRecOn generalizing start cs with
  | ind size ih =>
      subst size
      cases cs with
      | nil =>
          have lexed := lexFrom_append start (Rule.best?_lineEnd (.inl rfl) rest)
          exact ⟨[_], lexed, ⟨rfl, rfl⟩, rfl⟩
      | cons c cs =>
          by_cases isReturn : c :: cs = ['\r']
          · cases isReturn
            have lexed := lexFrom_append start (Rule.best?_lineEnd (.inr rfl) rest)
            exact ⟨[_], lexed, ⟨rfl, rfl⟩, rfl⟩
          · obtain ⟨r, t, us, split, best⟩ := exists_best?_of_ok ok
            have positive := Rule.match?_pos (Rule.match?_of_best? best)
            have best' := Rule.best?_newline best (split ▸ isReturn) rest
            have shorter : us.length < (c :: cs).length := by
              rw [split, List.length_append]
              omega
            rw [List.append_assoc] at best'
            rw [split, lexFrom_append start best] at ok ⊢
            obtain ⟨ls, lexed, same, stop⟩ :=
              ih us.length shorter (start + Bytes.size t) us (List.forall_mem_cons.1 ok).2 rfl
            refine ⟨⟨r.read t, String.ofList t, start⟩ :: ls, ?_, same.cons _, ?_⟩
            · rw [List.append_assoc, lexFrom_append start best', lexed, Bytes.size_append,
                List.cons_append, Nat.add_assoc start]
            · cases ls with
              | nil => cases stop
              | cons l ls =>
                  rw [List.getLast?_cons_cons, stop, Bytes.size_append, Nat.add_assoc start]

theorem lex_newline {s₁ : String} (ok : ∀ l ∈ lex s₁, ∃ token, l.result = .ok token) (s₂ : String) :
    ∃ ls, lex (s₁ ++ "\n" ++ s₂) = ls ++ (lex s₂).map (Lexeme.shift (s₁.utf8ByteSize + 1)) ∧
      SameMeaning ls (lex s₁) ∧ ls.getLast?.map Lexeme.stop = some (s₁.utf8ByteSize + 1) := by
  obtain ⟨ls, lexed, same, stop⟩ := lexFrom_newline 0 s₁.toList s₂.toList ok
  rw [Nat.zero_add, Bytes.size_toList] at lexed stop
  refine ⟨ls, ?_, same, stop⟩
  rw [lex, lex, ← lexFrom_shift, Nat.zero_add, ← lexed]
  simp

end StoreScheme
