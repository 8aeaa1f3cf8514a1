import StoreScheme.Proofs.Text.Bytes
import StoreScheme.Token.Lexer

/-!
# Lexemes tile the text

No rule matches the empty text and an invalid lexeme takes a character, so lexing goes on until the
text is used up.  Its lexemes stand one right after the other, from the first byte to the last.

* `Regex.nullable_of_longest?`: an empty match is one of the empty text
* `nextLexeme_pos`: a lexeme takes at least one character
* `Tiling`: a text cut into lexemes, from some offset on
* `lex_tiling`: lexing gives a tiling of the source
* `Tiling.tile`, `Tiling.lastStop_eq`, `Tiling.stops_increase`, `Tiling.cut`: the spans of a tiling
-/

namespace StoreScheme

/-! ## Matches take characters -/

namespace Regex

theorem longestFrom_eq_some {best : Option Nat} {n k : Nat} {r : Regex} {cs : List Char}
    (found : longestFrom best n r cs = some k) :
    best = some k ∨ n < k ∨ n = k ∧ r.nullable = true := by
  induction cs generalizing best n r with
  | nil =>
      unfold longestFrom at found
      split at found
      · cases found
        exact .inr (.inr ⟨rfl, ‹_›⟩)
      · exact .inl found
  | cons c cs ih =>
      unfold longestFrom at found
      split at found
      · exact .inl found
      · rcases ih found with earlier | later | ⟨later, -⟩
        · split at earlier
          · cases earlier
            exact .inr (.inr ⟨rfl, ‹_›⟩)
          · exact .inl earlier
        · exact .inr (.inl (by omega))
        · exact .inr (.inl (by omega))

theorem nullable_of_longest? {r : Regex} {cs : List Char} (found : r.longest? cs = some 0) :
    r.nullable = true := by
  rcases longestFrom_eq_some found with impossible | less | ⟨-, nullable⟩
  · cases impossible
  · exact absurd less (Nat.not_lt_zero 0)
  · exact nullable

end Regex

namespace Rule

theorem pattern_nullable (r : Rule) : r.pattern.nullable = false := by
  cases r <;> rfl

theorem match?_pos {r : Rule} {input : List Char} {n : Nat} (found : r.match? input = some n) :
    0 < n := by
  have longest : r.pattern.longest? input = some n := (Option.filter_eq_some_iff.1 found).1
  rcases Nat.eq_zero_or_pos n with rfl | positive
  · have nullable := Regex.nullable_of_longest? longest
    rw [pattern_nullable] at nullable
    cases nullable
  · exact positive

theorem prefer_eq_some {input : List Char} {best : Option (Rule × Nat)} {r s : Rule} {n : Nat}
    (chosen : prefer input best r = some (s, n)) :
    best = some (s, n) ∨ r = s ∧ r.match? input = some n := by
  unfold prefer at chosen
  split at chosen
  · split at chosen
    · cases chosen
      exact .inr ⟨rfl, ‹_›⟩
    · exact .inl chosen
  · cases chosen
    exact .inr ⟨rfl, ‹_›⟩
  · exact .inl chosen

theorem foldl_prefer_eq_some {input : List Char} {rs : List Rule} {best : Option (Rule × Nat)}
    {r : Rule} {n : Nat} (chosen : rs.foldl (prefer input) best = some (r, n)) :
    best = some (r, n) ∨ r ∈ rs ∧ r.match? input = some n := by
  induction rs generalizing best with
  | nil => exact .inl chosen
  | cons s rs ih =>
      rcases ih chosen with here | ⟨member, found⟩
      · refine (prefer_eq_some here).imp_right ?_
        rintro ⟨rfl, found⟩
        exact ⟨List.mem_cons_self, found⟩
      · exact .inr ⟨List.mem_cons_of_mem s member, found⟩

theorem match?_of_best? {input : List Char} {r : Rule} {n : Nat} (best : best? input = some (r, n)) :
    r.match? input = some n := by
  rcases foldl_prefer_eq_some best with impossible | ⟨-, found⟩
  · cases impossible
  · exact found

end Rule

theorem nextLexeme_pos (c : Char) (cs : List Char) : 0 < (nextLexeme (c :: cs)).2 := by
  unfold nextLexeme
  split
  · exact Rule.match?_pos (Rule.match?_of_best? ‹_›)
  · simp only [unmatchedLength]
    omega

/-! ## Tilings -/

/-- The lexemes of a text that starts at some offset: each stands where the one before ends, and
takes some characters of the text. -/
inductive Tiling : (start : Nat) → List Char → List Lexeme → Prop
  | nil {start : Nat} : Tiling start [] []
  | cons {l : Lexeme} {cs rest : List Char} {ls : List Lexeme} : l.text = String.ofList cs → cs ≠ [] →
    Tiling l.stop rest ls → Tiling l.start (cs ++ rest) (l :: ls)

theorem lexFrom_skip (start skip : Nat) (cs : List Char) :
    lexFrom start skip cs = lexFrom start 0 (cs.drop skip) := by
  induction cs generalizing skip with
  | nil => simp [lexFrom]
  | cons c cs ih =>
      cases skip with
      | zero => rfl
      | succ skip => simp [lexFrom, ih]

theorem lexFrom_tiling (start : Nat) (cs : List Char) : Tiling start cs (lexFrom start 0 cs) := by
  induction size : cs.length using Nat.strongRecOn generalizing start cs with
  | ind size ih =>
      subst size
      cases cs with
      | nil => simpa [lexFrom] using Tiling.nil
      | cons c cs =>
          have positive := nextLexeme_pos c cs
          generalize next : nextLexeme (c :: cs) = result at positive
          obtain ⟨result, n⟩ := result
          obtain ⟨n, rfl⟩ : ∃ k, n = k + 1 := ⟨n - 1, by omega⟩
          let l : Lexeme := ⟨result, String.ofList ((c :: cs).take (n + 1)), start⟩
          have first : lexFrom start 0 (c :: cs) = l :: lexFrom l.stop 0 (cs.drop n) := by
            simp only [lexFrom, next, Nat.add_sub_cancel, lexFrom_skip _ n cs]
            rfl
          have shorter : (cs.drop n).length < (c :: cs).length := by
            simp only [List.length_drop, List.length_cons]
            omega
          have rest := ih _ shorter l.stop (cs.drop n) rfl
          have whole : c :: cs = (c :: cs).take (n + 1) ++ cs.drop n := by simp
          rw [first, whole]
          exact .cons rfl (by simp) rest

theorem lex_tiling (source : String) : Tiling 0 source.toList (lex source) :=
  lexFrom_tiling 0 source.toList

/-! ## Spans of a tiling -/

/-- Spans that are not empty and lead from one offset to another without gap or overlap. -/
def Span.Tile (start stop : Nat) : List Span → Prop
  | [] => start = stop
  | s :: ss => s.start = start ∧ s.start < s.stop ∧ Tile s.stop stop ss

/-- The spans of texts that stand one after the other. -/
def textSpans (start : Nat) : List String → List Span
  | [] => []
  | t :: ts => ⟨start, start + t.utf8ByteSize⟩ :: textSpans (start + t.utf8ByteSize) ts

namespace Tiling

variable {start : Nat} {cs : List Char} {ls : List Lexeme}

theorem stop_eq {l : Lexeme} (text : l.text = String.ofList cs) : l.stop = l.start + Bytes.size cs := by
  rw [Lexeme.stop, text]
  rfl

theorem start_lt_stop {l : Lexeme} (text : l.text = String.ofList cs) (nonempty : cs ≠ []) :
    l.start < l.stop := by
  have positive : 0 < Bytes.size cs := Nat.pos_of_ne_zero (mt Bytes.size_eq_zero.1 nonempty)
  rw [stop_eq text]
  omega

theorem tile (tiling : Tiling start cs ls) :
    Span.Tile start (start + Bytes.size cs) (ls.map Lexeme.span) := by
  induction tiling with
  | nil => rfl
  | @cons l cs rest ls text nonempty _ ih =>
      refine ⟨rfl, start_lt_stop text nonempty, ?_⟩
      rw [Bytes.size_append, ← Nat.add_assoc, ← stop_eq text]
      exact ih

theorem lt_stop (tiling : Tiling start cs ls) : ∀ l ∈ ls, start < l.stop := by
  induction tiling with
  | nil => exact List.forall_mem_nil _
  | cons text nonempty _ ih =>
      have less := start_lt_stop text nonempty
      exact List.forall_mem_cons.2 ⟨less, fun l later => Nat.lt_trans less (ih l later)⟩

theorem forall_start_lt_stop (tiling : Tiling start cs ls) : ∀ l ∈ ls, l.start < l.stop := by
  induction tiling with
  | nil => exact List.forall_mem_nil _
  | cons text nonempty _ ih => exact List.forall_mem_cons.2 ⟨start_lt_stop text nonempty, ih⟩

/-- The end of the last lexeme is the end of the text. -/
theorem lastStop_eq (tiling : Tiling start cs ls) :
    (ls.getLast?.map Lexeme.stop).getD start = start + Bytes.size cs := by
  induction tiling with
  | nil => rfl
  | @cons l cs rest ls text _ _ ih =>
      rw [List.getLast?_cons, Bytes.size_append, ← Nat.add_assoc, ← stop_eq text, ← ih]
      cases ls.getLast? <;> rfl

theorem stops_increase (tiling : Tiling start cs ls) : ls.Pairwise fun l m => l.stop < m.stop := by
  induction tiling with
  | nil => exact .nil
  | cons _ _ rest ih => exact .cons rest.lt_stop ih

theorem join (tiling : Tiling start cs ls) :
    String.join (ls.map Lexeme.text) = String.ofList cs := by
  induction tiling with
  | nil => rfl
  | cons text _ _ ih => rw [List.map_cons, String.join_cons, ih, text, String.ofList_append]

theorem textSpans_eq (tiling : Tiling start cs ls) :
    textSpans start (ls.map Lexeme.text) = ls.map Lexeme.span := by
  induction tiling with
  | nil => rfl
  | cons _ _ _ ih => rw [List.map_cons, List.map_cons, textSpans, ← ih]; rfl

/-- The text before a lexeme, its own text and the text after it. -/
theorem cut (tiling : Tiling start cs ls) {l : Lexeme} (member : l ∈ ls) :
    ∃ before text after, cs = before ++ (text ++ after) ∧ l.text = String.ofList text ∧
      l.start = start + Bytes.size before := by
  induction tiling with
  | nil => cases member
  | @cons first cs rest ls text _ _ ih =>
      rcases List.mem_cons.1 member with rfl | later
      · exact ⟨[], cs, rest, rfl, text, rfl⟩
      · obtain ⟨before, own, after, rfl, text', start'⟩ := ih later
        refine ⟨cs ++ before, own, after, by simp, text', ?_⟩
        rw [start', stop_eq text, Bytes.size_append, Nat.add_assoc]

end Tiling

theorem Lexeme.stop_le_of_mem_lex {s : String} {l : Lexeme} (member : l ∈ lex s) :
    l.stop ≤ s.utf8ByteSize := by
  obtain ⟨before, text, after, whole, own, start⟩ := (lex_tiling s).cut member
  rw [Tiling.stop_eq own, start, ← Bytes.size_toList, whole, Bytes.size_append, Bytes.size_append]
  omega

end StoreScheme
