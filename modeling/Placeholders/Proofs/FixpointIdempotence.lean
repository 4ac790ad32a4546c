import Placeholders.Proofs.PassSequence
import Placeholders.Proofs.StandardPass

/-! Expanding a result once more. Where commands always answer the same, a pass is a function of its
string alone, so the pass at which a complete recursive expansion came to rest is found again. -/

namespace Placeholders

/-- Commands answer the same whenever they are asked the same, whatever has happened before. -/
def Executor.Steady {σ : Type} (execute : Executor σ) : Prop :=
  ∀ name folder before after, (execute name folder before).1 = (execute name folder after).1

theorem Executor.Steady.answers_eq {σ : Type} {execute : Executor σ} (h : execute.Steady)
    (folder : Text) (tokens : List Token) (before after : σ) :
    (answers execute folder tokens before).1 = (answers execute folder tokens after).1 := by
  induction tokens generalizing before after with
  | nil => rfl
  | cons token tokens ih =>
    have hanswer := h token.key folder before after
    have hrest := ih (execute token.key folder before).2 (execute token.key folder after).2
    simp only [answers]
    rw [hanswer, hrest]

namespace Services
variable {σ : Type} {services : Services σ} {context : Context}

private theorem commandAnswers_eq_of_steady (h : services.execute.Steady) (text : Text)
    (before after : σ) :
    (services.commandAnswers context text before).1 =
      (services.commandAnswers context text after).1 := by
  rw [commandAnswers, commandAnswers]
  split
  · rfl
  · exact h.answers_eq context.workspaceFolder _ before after

/-- What a pass does to its string does not depend on when it takes place. -/
theorem finished_eq_of_steady (h : services.execute.Steady) (text : Text) (before after : σ) :
    services.finished context text before = services.finished context text after :=
  finished_withExecutor services context text after
    (commandAnswers_eq_of_steady h text before after)

/-- A pass that changes nothing is the whole expansion of its string, also at a later time. -/
private theorem expand_of_unchanged (h : services.execute.Steady) {text : Text} {before : σ}
    (hf : services.fault? context text = none)
    (hcirc : (services.finished context text before).circular = none)
    (hch : (services.finished context text before).changed = false) (later : σ) :
    ((Engine.standard services).expand context text later).1 =
      ⟨{ result := Substitution.unescape text, changed := false, status := .complete, passes := 1 },
        (services.finished context text before).problems⟩ := by
  have hp := services.pass_of_fault?_eq_none context text later hf
  rw [finished_eq_of_steady h text later before] at hp
  have hresult := services.result_finished_of_changed_eq_false context text before hch
  rw [Engine.expand_of_first_last hp hcirc (Engine.not_continues_of_unchanged hch)]
  simp [Engine.lastOutcome, Engine.endingOf, hresult, hcirc, hch, maxPasses]

/-- The result of a complete recursive expansion is not changed by another one, which takes a single
pass and records what the last pass of the first one did, provided that no escape was left to turn
into a dollar sign. -/
theorem expand_expand (services : Services σ) (context : Context) (input : Text) (state later : σ)
    (hs : services.execute.Steady) (hrec : context.recursive = true)
    (hc : ((Engine.standard services).expand context input state).1.outcome.status = .complete)
    (hd : ¬ Grammar.dollarLiteral <:+:
      ((Engine.standard services).run context input state).1.text input) :
    let first := ((Engine.standard services).expand context input state).1.outcome
    ∃ last, ((Engine.standard services).run context input state).1.passes.getLast? = some last ∧
      ((Engine.standard services).expand context first.result later).1 =
        ⟨{ result := first.result, changed := false, circular := none, status := .complete,
            passes := 1 }, last.problems⟩ := by
  intro first
  obtain ⟨n, text, before, pass, after, hr, hp, hch, hcirc, he, _⟩ :=
    Engine.exists_unchanged_of_complete hrec hc
  obtain ⟨earlier, _, _, _, hrun⟩ :=
    Engine.run_of_not_continues hr hp (Engine.not_continues_of_unchanged hch)
  obtain ⟨hf, rfl, _⟩ := (services.pass_eq_ok_iff context text before).mp hp
  have hresult := services.result_finished_of_changed_eq_false context text before hch
  have hlast : ((Engine.standard services).run context input state).1.passes.getLast? =
      some (services.finished context text before) := by
    rw [hrun, List.getLast?_concat]
  have htext : ((Engine.standard services).run context input state).1.text input = text := by
    rw [Run.text, hlast]
    exact hresult
  have hunescape : Substitution.unescape text = text := by
    rw [htext] at hd
    exact Substitution.unescape_eq_self hd
  have hfirst : first.result = text := by
    calc first.result = Substitution.unescape (services.finished context text before).result := by
          rw [show first = _ from he, Engine.lastOutcome]
      _ = text := by rw [hresult, hunescape]
  refine ⟨services.finished context text before, hlast, ?_⟩
  rw [hfirst, expand_of_unchanged hs hf hcirc hch later, hunescape]

/-- A variable that is its own name, an unknown one and a failing command stay what they are. -/
theorem expand_expand_leftovers :
    let context : Context :=
      { vars := .bind .bare "self".toList "$\x7bself\x7d".toList (by decide) (by decide)
        variants := some (Table.ofList [("v".toList, "$\x7bself\x7d".toList)]) }
    let input := "$\x7bvariant:v\x7d$\x7bnone\x7d$\x7bcommand:c\x7d".toList
    let result := "$\x7bself\x7d$\x7bnone\x7d$\x7bcommand:c\x7d".toList
    (still.execute.Steady ∧ context.recursive = true ∧
      ((Engine.standard still).expand context input ()).1.outcome.status = .complete ∧
      ¬ Grammar.dollarLiteral <:+: ((Engine.standard still).run context input ()).1.text input) ∧
    ((Engine.standard still).expand context result ()).1 =
      ⟨{ result := result, changed := false, circular := none, status := .complete, passes := 1 },
        [⟨.invalidReference, "$\x7bnone\x7d".toList⟩,
          ⟨.commandExecutionFailed, "$\x7bcommand:c\x7d".toList⟩]⟩ := by
  intro context input result
  have hs : still.execute.Steady := fun _ _ _ _ => rfl
  have hc : ((Engine.standard still).expand context input ()).1.outcome.status = .complete := by
    decide +kernel
  have hd : ¬ Grammar.dollarLiteral <:+:
      ((Engine.standard still).run context input ()).1.text input := by
    decide +kernel
  have hresult : ((Engine.standard still).expand context input ()).1.outcome.result = result := by
    decide +kernel
  have hproblems : ((Engine.standard still).run context input ()).1.passes.getLast?.map (·.problems) =
      some [⟨.invalidReference, "$\x7bnone\x7d".toList⟩,
        ⟨.commandExecutionFailed, "$\x7bcommand:c\x7d".toList⟩] := by
    decide +kernel
  have hagain := expand_expand still context input () () hs rfl hc hd
  simp only [hresult] at hagain
  obtain ⟨last, hlast, hexpand⟩ := hagain
  rw [hlast, Option.map_some] at hproblems
  rw [Option.some.inj hproblems] at hexpand
  exact ⟨⟨hs, rfl, hc, hd⟩, hexpand⟩

end Services
end Placeholders
