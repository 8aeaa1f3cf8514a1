import Mathlib
import StoreScheme.Proofs.Session.Interner

/-!
# Sources that can not be read

A source with an error in its text or in one of its forms is not run, not even the forms before the
error.  Its names may have been interned, so that later names get other keys, but whatever is done with
the session afterwards, nothing else is seen than if the source had never been there.

* `KeyedClient.start`: a new session with an empty interner
* `unread_source_unseen`: an unread source changes nothing that can be seen
-/

namespace StoreScheme

def KeyedClient.start (options : Options) : KeyedClient := { client := { session := { options } } }

theorem KeyedClient.start_shows (options : Options) :
    (KeyedClient.start options).Shows { session := { options } } := by
  intro ρ _
  simp [start, Client.rename, Session.rename, Memory.rename, Store.rename, Globals.rename]

theorem Reply.eq_of_rename_unread {ρ : Renaming} {reply : Reply} {e : SourceError}
    (renamed : reply.rename ρ = .error e) (unread : ∀ e', e ≠ .eval e') : reply = .error e := by
  cases reply with
  | forms _ | value _ => cases renamed
  | error e' =>
      cases e' with
      | eval _ =>
          cases renamed
          exact absurd rfl (unread _)
      | parse _ | form _ => exact renamed

theorem KeyedClient.step_unread {k k' : KeyedClient} {c : Client} {act : Act} {e : SourceError}
    (shows : k.Shows c) (stepped : k.step act = some (.error e, k')) (unread : ∀ e', e ≠ .eval e') :
    k'.client = k.client ∧ k'.Shows c := by
  rcases step_shows shows act with ⟨keyed, -⟩ | ⟨reply, k'', c', keyed, named, grows, shows'⟩
  · rw [keyed] at stepped
    cases stepped
  · rw [keyed] at stepped
    obtain ⟨replied, rfl⟩ := Prod.mk.inj (Option.some.inj stepped)
    obtain rfl := Reply.eq_of_rename_unread replied unread
    obtain rfl := Client.step_unread named unread
    -- Both clients with keys are the one with names, seen with the later keys.
    have fits := k''.interner.fits_key
    exact ⟨(shows' _ fits).trans (shows _ (grows _ fits)).symm, shows'⟩

theorem KeyedClient.Shows.watch_eq {k k' : KeyedClient} {c : Client} (shows : k.Shows c)
    (shows' : k'.Shows c) (acts : List Act) :
    (k'.watch acts).map Prod.fst = (k.watch acts).map Prod.fst := by
  rcases watch_shows shows acts with ⟨keyed, named⟩ | ⟨sights, _, _, keyed, named, -⟩ <;>
    rcases watch_shows shows' acts with ⟨keyed', named'⟩ | ⟨sights', _, _, keyed', named', -⟩ <;>
    rw [named] at named' <;> cases named' <;> simp [keyed, keyed']

theorem unread_source_unseen (source : String) (e : SourceError) (unread : ∀ e', e ≠ .eval e') :
    (∀ (s s' : Session) (fuel : Nat), s.run fuel source = some (.error e, s') → s' = s) ∧
      ∀ (options : Options) (before after : List Act) (seen : List Sight) (k k' : KeyedClient)
        (fuel : Nat) (noted : List String),
        (KeyedClient.start options).watch before = some (seen, k) →
        k.step ⟨.run source, fuel, noted⟩ = some (.error e, k') →
        k'.client = k.client ∧ (k'.watch after).map Prod.fst = (k.watch after).map Prod.fst := by
  refine ⟨fun s s' fuel ran => ?_, fun options before after seen k k' fuel noted reached failed => ?_⟩
  · have served : s.serve fuel (.run source) = some (.error e, s') := by
      simp only [Session.serve, ran]
      rfl
    exact Session.serve_unread served unread
  · obtain ⟨c, shows⟩ : ∃ c, k.Shows c := by
      rcases KeyedClient.watch_shows (KeyedClient.start_shows options) before with
        ⟨keyed, -⟩ | ⟨_, _, c, keyed, -, shows⟩ <;> rw [reached] at keyed <;> cases keyed
      exact ⟨c, shows⟩
    obtain ⟨unchanged, shows'⟩ := KeyedClient.step_unread shows failed unread
    exact ⟨unchanged, shows.watch_eq shows' after⟩

/-! ## A repeated parameter -/

/-- After `a` was defined, with `b` as a parameter. -/
def identityDefined : KeyedClient where
  client := {
    session := {
      memory := { store := ⟨#[.closure 0 ["1"] [.ref "1"] []]⟩, globals := ⟨[("0", 0)]⟩, fresh := 1 } }
    values := [.closure 0 ["1"] [.ref "1"] []] }
  interner := ⟨["a", "b"]⟩

theorem identityDefined_reached :
    (KeyedClient.start {}).step ⟨.run "(define a (lambda (b) b)) a", 9, []⟩ =
      some (.value (.closure 0 ["1"] [.ref "1"] []), identityDefined) := by
  cbv

/-- The names of a source are interned up to the error in it. -/
theorem identityDefined_unread :
    identityDefined.step ⟨.run "(define x 1) (lambda (y y) y)", 9, ["x", "y"]⟩ =
      some (.error (.form ⟨⟨24, 25⟩, .duplicateName "y"⟩),
        ⟨identityDefined.client, ⟨["a", "b", "x", "y"]⟩⟩) := by
  cbv

/-- The name `z` gets another key after the source that was not read. -/
theorem unread_source_unseen_repeated_parameter :
    ((KeyedClient.mk identityDefined.client ⟨["a", "b", "x", "y"]⟩).watch
        [⟨.run "(define z a) (set! b z)", 9, []⟩]).map Prod.fst =
      (identityDefined.watch [⟨.run "(define z a) (set! b z)", 9, []⟩]).map Prod.fst := by
  have reached : (KeyedClient.start {}).watch [⟨.run "(define a (lambda (b) b)) a", 9, []⟩] =
      some ([identityDefined.sight (.value (.closure 0 ["1"] [.ref "1"] []))], identityDefined) := by
    simp [KeyedClient.watch, identityDefined_reached]
  have unseen := (unread_source_unseen "(define x 1) (lambda (y y) y)"
    (.form ⟨⟨24, 25⟩, .duplicateName "y"⟩) (by intro e' same; cases same)).2
  exact (unseen {} _ _ _ _ _ 9 ["x", "y"] reached identityDefined_unread).2

end StoreScheme
