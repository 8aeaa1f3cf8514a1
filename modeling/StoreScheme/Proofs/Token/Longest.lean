import StoreScheme.Proofs.Token.Overlap

/-!
# Longest matches of all rules

The rule used at the head of a text matches the longest prefix that is matched by any rule.  A known
directive that may not stand where it does is an unknown one of the same length there.

* `Rule.Chosen`, `Rule.chosen_step`, `Rule.chosen_best?`: how the choice goes on from rule to rule
* `Rule.length_le_of_best?`, `Rule.not_matches_of_best?`: all prefixes that any rule matches
* `Rule.not_mayPrecede_of_earlier`: when a rule with a common text is used instead of the other one
* `Lexeme.Origin`, `Lexeme.origin`: where the lexemes of a source come from
* `Lexeme.result_of_matches`: what is read by a rule that no other one overrides
* `Rule.read_ne_invalid`: matched texts are not invalid tokens
-/

namespace StoreScheme

namespace Rule

variable {r s : Rule} {c : Char} {n : Nat} {t u input : List Char} {rs : List Rule}
  {best : Option (Rule × Nat)}

/-! ## The choice -/

/-- What is chosen among some rules: the first of those with the longest match, if there are any. -/
inductive Chosen (input : List Char) : List Rule → Option (Rule × Nat) → Prop
  | none {rs : List Rule} : (∀ s ∈ rs, s.match? input = none) → Chosen input rs none
  | some {before after : List Rule} {r : Rule} {n : Nat} : r.match? input = some n →
    (∀ s ∈ before, ∀ m, s.match? input = some m → m < n) →
    (∀ s ∈ after, ∀ m, s.match? input = some m → m ≤ n) →
    Chosen input (before ++ r :: after) (some (r, n))

theorem chosen_step (chosen : Chosen input rs best) (s : Rule) :
    Chosen input (rs ++ [s]) (prefer input best s) := by
  unfold prefer
  cases chosen with
  | none unmatched =>
      cases found : s.match? input with
      | none => exact .none (List.forall_mem_append.2 ⟨unmatched, List.forall_mem_singleton.2 found⟩)
      | some m =>
          refine .some found (fun s' member m' found' => ?_) (List.forall_mem_nil _)
          rw [unmatched s' member] at found'
          cases found'
  | @some before after r n matched shorter longest =>
      have whole : before ++ r :: after ++ [s] = before ++ r :: (after ++ [s]) := by simp
      cases found : s.match? input with
      | none =>
          rw [whole]
          refine .some matched shorter (List.forall_mem_append.2 ⟨longest, ?_⟩)
          exact List.forall_mem_singleton.2 fun m found' => by rw [found] at found'; cases found'
      | some m =>
          dsimp only
          split
          · rename_i longer
            refine .some found (fun s' member m' found' => ?_) (List.forall_mem_nil _)
            rcases List.mem_append.1 member with earlier | later
            · exact Nat.lt_trans (shorter s' earlier m' found') longer
            · rcases List.mem_cons.1 later with rfl | later
              · rw [matched] at found'
                cases found'
                exact longer
              · exact Nat.lt_of_le_of_lt (longest s' later m' found') longer
          · rename_i notLonger
            rw [whole]
            refine .some matched shorter (List.forall_mem_append.2 ⟨longest, ?_⟩)
            refine List.forall_mem_singleton.2 fun m' found' => ?_
            rw [found] at found'
            cases found'
            exact Nat.not_lt.1 notLonger

theorem chosen_run (chosen : Chosen input rs best) (ss : List Rule) :
    Chosen input (rs ++ ss) (ss.foldl (prefer input) best) := by
  induction ss generalizing rs best with
  | nil => rwa [List.append_nil]
  | cons s ss ih =>
      have next := ih (chosen_step chosen s)
      rwa [List.append_assoc] at next

theorem chosen_best? (input : List Char) : Chosen input all (best? input) :=
  chosen_run (.none (List.forall_mem_nil _)) all

theorem earlier_eq {before after : List Rule} (split : all = before ++ r :: after) :
    r.earlier = before := by
  have nodup : (before ++ r :: after).Nodup := split ▸ (by decide : all.Nodup)
  have other : ∀ s ∈ before, decide (s ≠ r) = true := by
    intro s member
    have apart := (List.nodup_append.1 nodup).2.2 s member r List.mem_cons_self
    exact decide_eq_true apart
  rw [earlier, split, List.takeWhile_append_of_pos other, List.takeWhile_cons_of_neg (by simp),
    List.append_nil]

theorem lt_of_best? (best : best? input = some (r, n)) (earlier : s ∈ r.earlier) {m : Nat}
    (found : s.match? input = some m) : m < n := by
  have chosen := chosen_best? input
  rw [best] at chosen
  generalize split : all = rules at chosen
  cases chosen with
  | some _ shorter _ =>
      rw [earlier_eq split] at earlier
      exact shorter s earlier m found

theorem le_of_best? (best : best? input = some (r, n)) {m : Nat} (found : s.match? input = some m) :
    m ≤ n := by
  have chosen := chosen_best? input
  rw [best] at chosen
  have member := mem_all s
  generalize all = rules at chosen member
  cases chosen with
  | some matched shorter longest =>
      rcases List.mem_append.1 member with earlier | later
      · exact Nat.le_of_lt (shorter s earlier m found)
      · rcases List.mem_cons.1 later with rfl | later
        · rw [matched] at found
          cases found
          exact Nat.le_refl n
        · exact longest s later m found

theorem match?_of_best?_none (best : best? input = none) (s : Rule) : s.match? input = none := by
  have chosen := chosen_best? input
  rw [best] at chosen
  have member := mem_all s
  generalize all = rules at chosen member
  cases chosen with
  | none unmatched => exact unmatched s member

/-! ## All prefixes -/

theorem overrides_of_not_mayPrecede (refused : s.mayPrecede u = false) : Overrides s .otherDirective := by
  cases s with
  | foldCase => exact .foldCase
  | noFoldCase => exact .noFoldCase
  | _ => cases refused

/-- A prefix that a rule matches is not longer than the match of some rule that may stand there. -/
theorem exists_match? (below : u <+: input) (matched : s.pattern.Matches u) :
    ∃ (s' : Rule) (m : Nat), s'.match? input = some m ∧ u.length ≤ m := by
  have longest {s : Rule} {v : List Char} (below : v <+: input) (matched : s.pattern.Matches v) :
      ∃ m, s.pattern.Longest input m ∧ v.length ≤ m := by
    cases found : s.pattern.longest? input with
    | none => exact absurd matched (Regex.longest?_eq_none_iff.1 found v below)
    | some m =>
        have longest := Regex.longest?_eq_some_iff.1 found
        exact ⟨m, longest, longest.maximal v below matched⟩
  obtain ⟨m, longest', le⟩ := longest below matched
  cases allowed : s.mayPrecede (input.drop m) with
  | true => exact ⟨s, m, Option.filter_eq_some_iff.2 ⟨Regex.longest?_eq_some_iff.2 longest', allowed⟩, le⟩
  | false =>
      have other := (overrides_of_not_mayPrecede allowed).matches longest'.matched
      obtain ⟨m', longest'', le'⟩ := longest (List.take_prefix m input) other
      rw [List.length_take_of_le longest'.le] at le'
      exact ⟨.otherDirective, m', Option.filter_eq_some_iff.2 ⟨Regex.longest?_eq_some_iff.2 longest'', rfl⟩,
        Nat.le_trans le le'⟩

theorem length_le_of_best? (best : best? input = some (r, n)) (below : u <+: input)
    (matched : s.pattern.Matches u) : u.length ≤ n := by
  obtain ⟨s', m, found, le⟩ := exists_match? below matched
  exact Nat.le_trans le (le_of_best? best found)

theorem not_matches_of_best? (best : best? input = none) (below : u <+: input) :
    ¬ s.pattern.Matches u := by
  intro matched
  obtain ⟨s', m, found, -⟩ := exists_match? below matched
  rw [match?_of_best?_none best s'] at found
  cases found

/-! ## Common texts -/

theorem Overrides.mem_earlier (overrides : Overrides r s) : r ∈ s.earlier := by
  cases overrides <;> decide

/-- A rule that matches the same text as the one that is used does so where it may stand. -/
theorem match?_eq_of_best? (best : best? input = some (r, n)) (matched : s.pattern.Matches (input.take n)) :
    s.match? input = if s.mayPrecede (input.drop n) then some n else none := by
  have longest : s.pattern.Longest input n :=
    ⟨(longest_of_best? best).le, matched, fun u below matched => length_le_of_best? best below matched⟩
  rw [match?, Regex.longest?_eq_some_iff.2 longest, Option.filter_some]

theorem not_mayPrecede_of_earlier (best : best? input = some (r, n)) (earlier : s ∈ r.earlier)
    (matched : s.pattern.Matches (input.take n)) : s.mayPrecede (input.drop n) = false := by
  cases allowed : s.mayPrecede (input.drop n) with
  | false => rfl
  | true =>
      have found := match?_eq_of_best? best matched
      rw [if_pos allowed] at found
      exact absurd (lt_of_best? best earlier found) (Nat.lt_irrefl n)

/-- Where a known directive may not stand, it is used as an unknown one. -/
theorem eq_otherDirective_of_not_mayPrecede (best : best? input = some (r, n))
    (matched : s.pattern.Matches (input.take n)) (refused : s.mayPrecede (input.drop n) = false) :
    r = .otherDirective := by
  have overrides := overrides_of_not_mayPrecede refused
  rcases eq_or_overrides (longest_of_best? best).matched matched with rfl | overriding | overridden
  · have unmatched := match?_eq_of_best? best matched
    rw [refused, match?_of_best? best] at unmatched
    cases unmatched
  · cases overriding <;> cases overrides
  · cases overrides <;> cases overridden <;> rfl

end Rule

/-! ## Lexemes of a source -/

theorem exists_nextLexeme_of_mem_lexFrom {start : Nat} {cs : List Char} {l : Lexeme}
    (member : l ∈ lexFrom start 0 cs) :
    ∃ before rest n, cs = before ++ rest ∧ l.start = start + Bytes.size before ∧
      nextLexeme rest = (l.result, n) ∧ l.text = String.ofList (rest.take n) := by
  induction size : cs.length using Nat.strongRecOn generalizing start cs with
  | ind size ih =>
      subst size
      cases cs with
      | nil => cases member
      | cons c cs =>
          have positive := nextLexeme_pos c cs
          generalize next : nextLexeme (c :: cs) = result at positive
          obtain ⟨result, n⟩ := result
          rw [lexFrom_cons start next] at member
          rcases List.mem_cons.1 member with rfl | later
          · exact ⟨[], c :: cs, n, rfl, rfl, next, rfl⟩
          · have shorter : ((c :: cs).drop n).length < (c :: cs).length := by
              rw [List.length_drop, List.length_cons]
              omega
            obtain ⟨before, rest, m, split, start', found⟩ := ih _ shorter later rfl
            refine ⟨(c :: cs).take n ++ before, rest, m, ?_, ?_, found⟩
            · rw [List.append_assoc, ← split, List.take_append_drop]
            · rw [start', Bytes.size_append, Nat.add_assoc]

/-- The text of a source from a lexeme on. -/
def Lexeme.onwards (source : String) (l : Lexeme) : List Char := Bytes.drop l.start source.toList

namespace Lexeme

variable {source : String} {l : Lexeme}

theorem nextLexeme_onwards (member : l ∈ lex source) :
    ∃ n, nextLexeme (l.onwards source) = (l.result, n) ∧
      l.text = String.ofList ((l.onwards source).take n) := by
  obtain ⟨before, rest, n, split, start, next, text⟩ := exists_nextLexeme_of_mem_lexFrom member
  have same : l.onwards source = rest := by
    rw [Lexeme.onwards, start, Nat.zero_add, split, Bytes.drop_append]
  rw [same]
  exact ⟨n, next, text⟩

/-- How a lexeme comes about: by the rule that is used where it starts, or because there is none. -/
inductive Origin (source : String) (l : Lexeme) : Prop
  | rule {r : Rule} {n : Nat} : Rule.best? (l.onwards source) = some (r, n) →
    l.text.toList = (l.onwards source).take n → l.result = r.read l.text.toList → Origin source l
  | none {n : Nat} : Rule.best? (l.onwards source) = none →
    l.text.toList = (l.onwards source).take n → l.result = .error .invalid → Origin source l

theorem origin (member : l ∈ lex source) : l.Origin source := by
  obtain ⟨n, next, text⟩ := nextLexeme_onwards member
  have text' : l.text.toList = (l.onwards source).take n := by rw [text, String.toList_ofList]
  unfold nextLexeme at next
  split at next
  · rename_i r m best
    obtain ⟨result, rfl⟩ := Prod.mk.inj next
    exact .rule best text' (by rw [← result, text'])
  · rename_i best
    obtain ⟨result, rfl⟩ := Prod.mk.inj next
    exact .none best text' result.symm

/-- A text is read by the rule that matches it, if that may stand anywhere and no other one overrides it. -/
theorem result_of_matches {r : Rule} (member : l ∈ lex source) (stands : ∀ rest, r.mayPrecede rest = true)
    (free : ∀ s, ¬ Rule.Overrides s r) (matched : r.pattern.Matches l.text.toList) :
    l.result = r.read l.text.toList := by
  cases origin member with
  | none best text _ =>
      rw [text] at matched
      exact absurd matched (Rule.not_matches_of_best? best (List.take_prefix _ _))
  | @rule q n best text result =>
      have matched' : r.pattern.Matches ((l.onwards source).take n) := text ▸ matched
      rcases Rule.eq_or_overrides (Rule.longest_of_best? best).matched matched' with
        rfl | overriding | overridden
      · exact result
      · exact absurd overriding (free q)
      · have refused := Rule.not_mayPrecede_of_earlier best overridden.mem_earlier matched'
        rw [stands] at refused
        cases refused

end Lexeme

/-! ## Errors of matched texts -/

namespace Delimited

variable {k : Delimited} {e : LexError}

/-- What can be wrong inside of a delimited token. -/
def Refuses (k : Delimited) (e : LexError) : Prop := e = k.malformed ∨ ∃ code, e = .invalidCodepoint code

theorem refuses_of_hexEscape {code used : Nat} {cs : List Char}
    (failed : k.hexEscape code used cs = .error e) : k.Refuses e := by
  induction cs generalizing code used with
  | nil =>
      cases failed
      exact .inl rfl
  | cons c cs ih =>
      unfold hexEscape at failed
      split at failed
      · unfold charOfCode at failed
        split at failed
        · cases failed
        · cases failed
          exact .inr ⟨code, rfl⟩
      · split at failed
        · cases failed
          exact .inl rfl
        · dsimp only at failed
          split at failed
          · exact ih failed
          · cases failed
            exact .inr ⟨maxCode, rfl⟩

theorem refuses_of_escape {cs : List Char} (failed : k.escape cs = .error e) : k.Refuses e := by
  unfold escape at failed
  split at failed
  · cases failed
    exact .inl rfl
  · split at failed
    · rename_i c cs _
      cases run : k.hexEscape 0 1 cs with
      | error e' =>
          rw [run] at failed
          cases failed
          exact refuses_of_hexEscape run
      | ok result =>
          rw [run] at failed
          cases failed
    · split at failed
      · cases failed
      · split at failed
        · cases failed
        · cases failed
          exact .inl rfl

theorem error_of_map {α β : Type} {f : α → β} {x : Except LexError α} (failed : x.map f = .error e) :
    x = .error e := by
  cases x with
  | error e' =>
      cases failed
      rfl
  | ok a => cases failed

theorem refuses_of_decodeFrom {skip : Nat} {cs : List Char} (failed : k.decodeFrom skip cs = .error e) :
    k.Refuses e := by
  induction cs generalizing skip with
  | nil => cases skip <;> cases failed
  | cons c cs ih =>
      cases skip with
      | succ skip => exact ih failed
      | zero =>
          unfold decodeFrom at failed
          split at failed
          · cases failed
          · split at failed
            · split at failed
              · rename_i e' escaped
                cases failed
                exact refuses_of_escape escaped
              · exact ih (error_of_map failed)
            · exact ih (error_of_map failed)

theorem malformed_of_decode {t : List Char} {f : String → Token} (failed : (k.decode t).map f = .error e)
    (noCode : ∀ code, e ≠ .invalidCodepoint code) : k.malformed = e := by
  rcases refuses_of_decodeFrom (error_of_map (error_of_map failed)) with malformed | ⟨code, isCode⟩
  · exact malformed.symm
  · exact absurd isCode (noCode code)

end Delimited

theorem Rule.read_ne_invalid (r : Rule) (t : List Char) : r.read t ≠ .error .invalid := by
  intro failed
  cases r with
  | barIdentifier => cases Delimited.malformed_of_decode failed nofun
  | string => cases Delimited.malformed_of_decode failed nofun
  | integer =>
      simp only [read, readInteger] at failed
      split at failed <;> cases failed
  | pointReal | fractionReal | exponentReal =>
      simp only [read, readReal] at failed
      split at failed <;> cases failed
  | specialReal =>
      simp only [read, readSpecialReal] at failed
      split at failed <;> cases failed
  | _ => cases failed

end StoreScheme
