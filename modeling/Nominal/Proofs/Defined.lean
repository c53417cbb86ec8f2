import Nominal.Proofs.Progress.Declarations
import Nominal.Proofs.Balanced

/-!
# Every Source Has an Outcome

Whatever the source is and whatever the limits are, parsing it gives a tree, meets a limit, or
ends because the next token was looked at too often. That is all: no token is taken where
there is none, what a production states of the next token is so, no span ends before it
starts, no loop goes round without getting further, and a tree builder that is told about the
nodes as they are started and finished is not misused.

All of this is shown of the watched run from the start of the file, where everything is still
to be done.

## Theorems

* `watchFile_not_broken`: The watched run of a whole file has no fault.
* `runFile_eq_watchFile`: So it is the run that nobody watches.
* `parse_defined`: How parsing a source can end, with a builder and without one.
-/

namespace Nominal

namespace Grammar

open Syntax (Kind Lexeme Tree)

/-- At the start, all tokens are still to come, and nothing is known of them. -/
theorem stands_initial (limits : Limits) (lexemes : List Lexeme) :
    (State.initial limits lexemes).Stands ⟨limits.depth, Lexeme.widthOf lexemes⟩
      (lexemes.length + 1) .still Set.univ where
  sound := {
    length := Nat.zero_add _
    delimiters := fun d hd => absurd hd List.not_mem_nil }
  effort := by
    have hle := List.length_filter_le (fun l : Lexeme => !l.isTrivia) lexemes
    simpa only [State.effort, State.tokensLeft, State.upcoming, State.initial, List.length_map,
      Option.isNone_none, if_true, Nat.add_le_add_iff_right] using hle
  pace := trivial
  ahead := .inl rfl

/-- The references that a production may follow are enough for a whole file. -/
theorem serves_file (setting : Setting) (lexemes : List Lexeme) :
    Serves setting (lexemes.length + 1) 7
      (watchProduction setting (levels * (lexemes.length + 1))) := by
  refine serves_watchProduction ?_
  rw [levels]
  omega

/-- The watched run of a whole file has no fault. -/
theorem watchFile_not_broken (limits : Limits) (lexemes : List Lexeme) (fault : Fault) :
    watchFile limits lexemes ≠ .broken fault := by
  intro hbroken
  have hserves := serves_file ⟨limits.depth, Lexeme.widthOf lexemes⟩ lexemes
  have hitems := hserves (.items false) (lexemes.length + 1) .still Set.univ
    (.inr ⟨rfl, by decide⟩) (fun hlive => nomatch hlive)
  have hfile : Proceeds ⟨limits.depth, Lexeme.widthOf lexemes⟩ _ _ fileScript fun _ _ => True :=
    hitems.bind fun _ => Proceeds.perform fun s _ => trivial
  have hmeets := hfile _ (stands_initial limits lexemes)
  rw [watchFile] at hbroken
  rw [hbroken] at hmeets
  exact hmeets

/-- So it is the run that nobody watches. -/
theorem runFile_eq_watchFile (limits : Limits) (lexemes : List Lexeme) :
    runFile limits lexemes = watchFile limits lexemes :=
  (watchFile_refines limits lexemes).eq (watchFile_not_broken limits lexemes)

theorem parseLexemes_eq_watch (limits : Limits) (lexemes : List Lexeme) :
    parseLexemes limits lexemes = (watchFile limits lexemes).result limits := by
  rw [parseLexemes_eq, runFile_eq_watchFile]

/-- Whatever the source and the limits are, parsing gives a tree with a root, meets a limit,
    or is stuck, and so it does on a tree builder with an eye on the run: no operation is used
    where it must not be used, every round of a loop that asks for another one has taken a
    token or met a limit, and the builder is never misused. -/
theorem parse_defined (limits : Limits) (source : String) :
    buildWith limits source = (parseWith limits source).mapError .parse ∧
      ((∃ parsed children, parseWith limits source = .ok parsed ∧
          parsed.tree = .node .root children) ∨
        parseWith limits source = .error (.exceeded .tokens) ∨
        parseWith limits source = .error (.exceeded .depth) ∨
        parseWith limits source = .error .stuck) := by
  constructor
  · rw [buildWith, buildLexemes_eq, ← parseLexemes_eq_watch, parseWith]
  · have hfile := watchFile_not_broken limits (Syntax.lex source)
    rw [parseWith, parseLexemes_eq_watch]
    cases hrun : watchFile limits (Syntax.lex source) with
    | ok u s =>
        rw [Outcome.result, State.result]
        cases s.lost with
        | none => exact .inl ⟨_, s.output, rfl, rfl⟩
        | some limit =>
            cases limit with
            | tokens => exact .inr (.inl rfl)
            | depth => exact .inr (.inr (.inl rfl))
    | stuck => exact .inr (.inr (.inr rfl))
    | broken fault => exact absurd hrun (hfile fault)

end Grammar

end Nominal
